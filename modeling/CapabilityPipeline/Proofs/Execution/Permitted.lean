import CapabilityPipeline.Proofs.Execution.Explained

/-!
# Calls are permitted

A driver is called for steps only whose node the context allows and whose action the registry
defines on that node. The call goes to the driver that the handler of the action names, by the name
that the handler gives. Steps come to their call from pipelines, from branches within branches and
from bindings that are asked for, and after tokens have been replaced, but the one way to a call
leads through this check. So it makes no difference what the drivers of other nodes do.

Results:

* `Engine.Permits`: the calls that may be made for a step.
* `Engine.CallsAsPermitted`: all that is done to the world is done by permitted calls.
* `Session.advanceStep_withDrivers`, `Session.Move.withDrivers`: drivers matter by routes only.
* `Engine.run_permitted`: every run makes permitted calls only, and drivers that serve no allowed
  node may be replaced.
-/

namespace CapabilityPipeline

open Json (Value)

variable {World : Type}

/-! ## Permitted calls -/

/-- A handler sends an action of a domain to the driver of the domain under its own name, or to the
driver of a package under the name of the tool. -/
def Handler.Sends (domain action : String) (call : Call) : Handler → Prop
  | .code => call.driver = .node domain ∧ call.action = action
  | .package packageId tool => call.driver = .package packageId ∧ call.action = tool

/-- An action is found where its node defines it. -/
theorem Snapshot.route_eq_ok {s : Snapshot} {domain name : String} {action : Action}
    (h : s.route domain name = .ok action) :
    ∃ node, s.nodes.get? domain = some node ∧ node.actions.get? name = some action := by
  rw [Snapshot.route] at h
  split at h
  · cases h
  · next node found =>
    split at h
    · cases h
    · next action' named =>
      cases h
      exact ⟨node, found, named⟩

/-- The driver at a registration serves a node: an action of the node is sent to it. -/
def Snapshot.Serves (s : Snapshot) (key : DriverKey) (domain : String) : Prop :=
  ∃ node name action, s.nodes.get? domain = some node ∧ node.actions.get? name = some action ∧
    (action.handler.destination domain name).1 = key

/-- An action that a step is routed to is served by the driver that its handler names. -/
theorem Snapshot.serves_of_route {s : Snapshot} {domain name : String} {action : Action}
    (h : s.route domain name = .ok action) :
    s.Serves (action.handler.destination domain name).1 domain := by
  obtain ⟨node, found, named⟩ := Snapshot.route_eq_ok h
  exact ⟨node, name, action, found, named, rfl⟩

namespace Engine

/-- The call may be made for the step. -/
structure Permits (e : Engine World) (context : Context) (step : Step) (call : Call) : Prop where
  allowed : context.allows step.domain = true
  /-- The action is defined on the node, and its handler sends it to the driver by the name. -/
  sent : ∃ node action, e.registry.nodes.get? step.domain = some node ∧
    node.actions.get? step.action = some action ∧
    action.handler.Sends step.domain step.action call
  registered : ∃ driver, e.drivers.get? call.driver = some driver

/-- Every call of a trace is permitted for the step that it is made for, and the calls of the trace
are all that is done to the world. -/
structure CallsAsPermitted (e : Engine World) (stepAt? : Occurrence → Option Step)
    (context : Context) (world : World) (trace : Trace) (final : World) : Prop where
  permitted : ∀ site call, .called site call ∈ trace →
    ∃ step, stepAt? site = some step ∧ e.Permits context step call
  replayed : final = e.replay context trace world

/-- The engine with other drivers. -/
def withDrivers (e : Engine World) (table : DriverTable World) : Engine World :=
  { e with drivers := table }

/-- The drivers that serve an allowed node are those of the engine. -/
def KeepsAllowed (e : Engine World) (context : Context) (table : DriverTable World) : Prop :=
  ∀ key domain, e.registry.Serves key domain → context.allows domain = true →
    table.get? key = e.drivers.get? key

end Engine

/-- The step that is run by itself. -/
def Step.alone? (step : Step) : Occurrence → Option Step
  | .alone => some step
  | _ => none

/-! ## Routes -/

namespace Session

/-- The session with other drivers. -/
def withDrivers (s : Session World) (table : DriverTable World) : Session World :=
  { s with engine := s.engine.withDrivers table }

/-- A step reaches a driver only if its node is allowed and defines its action. -/
theorem route_eq_ok {s : Session World} {step : Step} {driver : Driver World} {key : DriverKey}
    {name : String} (h : s.route step = .ok (driver, key, name)) :
    s.context.allows step.domain = true ∧ ∃ node action,
      s.engine.registry.nodes.get? step.domain = some node ∧
      node.actions.get? step.action = some action ∧
      action.handler.destination step.domain step.action = (key, name) ∧
      s.engine.drivers.get? key = some driver := by
  have registered := get?_of_route h
  rw [route] at h
  split at h
  · next allowed =>
    split at h
    · next action defined =>
      obtain ⟨node, found, named⟩ := Snapshot.route_eq_ok defined
      refine ⟨allowed, node, action, found, named, ?_, registered⟩
      rw [DriverTable.resolve] at h
      dsimp only at h
      split at h
      · cases h
        rfl
      · cases h
    · cases h
  · cases h

/-- **A step that is routed somewhere is permitted to be called there.** -/
theorem permits_of_destination {s : Session World} {step : Step} {call : Call}
    (h : s.destination step = .ok (call.driver, call.action)) :
    s.engine.Permits s.context step call := by
  obtain ⟨⟨driver, key, name⟩, route, same⟩ := map_eq_ok.mp h
  cases same
  obtain ⟨allowed, node, action, found, named, destination, registered⟩ := route_eq_ok route
  refine ⟨allowed, ⟨node, action, found, named, ?_⟩, driver, registered⟩
  cases handler : action.handler with
  | code =>
    rw [handler] at destination
    exact ⟨(congrArg Prod.fst destination).symm, (congrArg Prod.snd destination).symm⟩
  | package packageId tool =>
    rw [handler] at destination
    exact ⟨(congrArg Prod.fst destination).symm, (congrArg Prod.snd destination).symm⟩

/-- Drivers that serve no allowed node have no part in where steps are routed. -/
theorem route_withDrivers {s : Session World} {table : DriverTable World}
    (h : s.engine.KeepsAllowed s.context table) (step : Step) :
    (s.withDrivers table).route step = s.route step := by
  rw [route, route]
  by_cases allowed : s.context.allows step.domain
  · refine (if_pos allowed).trans (.trans ?_ (if_pos allowed).symm)
    dsimp only [withDrivers, Engine.withDrivers]
    cases defined : s.engine.registry.route step.domain step.action with
    | error cause => rfl
    | ok action =>
      show table.resolve _ _ action = s.engine.drivers.resolve _ _ action
      unfold DriverTable.resolve
      dsimp only
      rw [h _ step.domain (Snapshot.serves_of_route defined) allowed]
  · exact (if_neg allowed).trans (if_neg allowed).symm

/-! ## Runs with other drivers -/

section Readers

variable (s : Session World) (table : DriverTable World)

theorem outcome?_withDrivers : (s.withDrivers table).outcome? = s.outcome? := by
  delta outcome?
  rfl

theorem gather_withDrivers : (s.withDrivers table).gather = s.gather := by
  delta gather
  rfl

theorem allFailed_withDrivers (trace : Trace) (pipeline group : Nat) (path : List Nat)
    (position : Nat) (branches : List Group) :
    (s.withDrivers table).allFailed trace pipeline group path position branches =
      s.allFailed trace pipeline group path position branches := by
  induction branches generalizing position with
  | nil => rfl
  | cons branch rest ih => rw [allFailed, allFailed, outcome?_withDrivers, ih]

theorem reached?_withDrivers (trace : Trace) (pipeline group : Nat) (before path : List Nat)
    (g : Group) : (s.withDrivers table).reached? trace pipeline group before path g =
      s.reached? trace pipeline group before path g := by
  induction path generalizing before g with
  | nil => cases g <;> rfl
  | cons position path ih =>
    cases g with
    | single => rfl
    | parallel branches =>
      rw [reached?, reached?]
      exact congrArg _ (funext fun branch => ih _ branch)
    | fallback branches =>
      rw [reached?, reached?, allFailed_withDrivers]
      split
      · exact congrArg _ (funext fun branch => ih _ branch)
      · rfl

theorem task?_withDrivers (stage : Stage) (trace : Trace) (site : Occurrence) :
    (s.withDrivers table).task? stage trace site = s.task? stage trace site := by
  cases site with
  | binding => rfl
  | leaf =>
    rw [task?, task?, reached?_withDrivers]
    rfl
  | alone => rfl

end Readers

section SameRoutes

variable {s : Session World} {table : DriverTable World}

theorem Ready.withDrivers {stage : Stage} {trace : Trace} {site : Occurrence} {task : Task}
    (h : s.Ready stage trace site task) : (s.withDrivers table).Ready stage trace site task :=
  ⟨(s.task?_withDrivers table stage trace site).trans h.task, h.uncalled, h.unended⟩

/-- **A step is advanced alike by other drivers with the same routes**, and so are the bindings
that it asks for. -/
theorem advanceStep_withDrivers
    (same : ∀ step, (s.withDrivers table).route step = s.route step) (limit : Nat)
    (site : Occurrence) (step : Step) (previous : Option Value) :
    (s.withDrivers table).advanceStep limit site step previous =
      s.advanceStep limit site step previous := by
  have dispatch : (s.withDrivers table).dispatch = s.dispatch := by
    funext site step
    unfold dispatch
    rw [same]
    rfl
  induction limit using Nat.strongRecOn generalizing site step previous with
  | ind limit ih =>
    rw [advanceStep, advanceStep, gather_withDrivers, dispatch]
    refine bind_congr fun state => ?_
    dsimp only
    split
    · rfl
    · rfl
    · rfl
    · refine congrArg (· >>= _) (congrArg (fun force => s.gather site limit force _ _) ?_)
      funext index visible binding
      rw [ih index visible]
      rfl

mutual

theorem advanceGroup_withDrivers (same : ∀ step, (s.withDrivers table).route step = s.route step)
    (pipeline group : Nat) (previous : Option Value) : ∀ (g : Group) (path : List Nat),
    (s.withDrivers table).advanceGroup pipeline group path previous g =
      s.advanceGroup pipeline group path previous g
  | .single step, path => by
    rw [advanceGroup, advanceGroup]
    exact advanceStep_withDrivers same _ _ _ _
  | .parallel branches, path => by
    rw [advanceGroup, advanceGroup,
      advanceBranches_withDrivers same pipeline group previous branches]
    rfl
  | .fallback branches, path => by
    rw [advanceGroup, advanceGroup,
      advanceFallback_withDrivers same pipeline group previous branches]

theorem advanceBranches_withDrivers
    (same : ∀ step, (s.withDrivers table).route step = s.route step)
    (pipeline group : Nat) (previous : Option Value) :
    ∀ (branches : List Group) (path : List Nat) (position : Nat),
    (s.withDrivers table).advanceBranches pipeline group path previous position branches =
      s.advanceBranches pipeline group path previous position branches
  | [], path, position => by rw [advanceBranches, advanceBranches]
  | branch :: rest, path, position => by
    rw [advanceBranches, advanceBranches,
      advanceGroup_withDrivers same pipeline group previous branch,
      advanceBranches_withDrivers same pipeline group previous rest]

theorem advanceFallback_withDrivers
    (same : ∀ step, (s.withDrivers table).route step = s.route step)
    (pipeline group : Nat) (previous : Option Value) :
    ∀ (branches : List Group) (path : List Nat) (position : Nat) (errors : List String),
    (s.withDrivers table).advanceFallback pipeline group path previous position errors branches =
      s.advanceFallback pipeline group path previous position errors branches
  | [], path, position, errors => by rw [advanceFallback, advanceFallback]
  | branch :: rest, path, position, errors => by
    rw [advanceFallback, advanceFallback,
      advanceGroup_withDrivers same pipeline group previous branch]
    refine bind_congr fun result => ?_
    cases result with
    | none => rfl
    | some result =>
      dsimp only
      rw [advanceFallback_withDrivers same pipeline group previous rest]

end

variable (same : ∀ step, (s.withDrivers table).route step = s.route step)

include same

theorem runGroups_withDrivers (pipeline position : Nat) (previous : Option Envelope)
    (groups : List Group) : (s.withDrivers table).runGroups pipeline position previous groups =
      s.runGroups pipeline position previous groups := by
  have runGroup : (s.withDrivers table).runGroup = s.runGroup := by
    funext pipeline group previous g
    unfold runGroup
    rw [advanceGroup_withDrivers same]
    rfl
  induction groups generalizing position previous with
  | nil => cases previous <;> rfl
  | cons group rest ih =>
    rw [runGroups, runGroups, runGroup]
    refine bind_congr fun result => ?_
    rw [ih]
    rfl

theorem runPipelines_withDrivers (position : Nat) (pipelines : List Pipeline) :
    (s.withDrivers table).runPipelines position pipelines = s.runPipelines position pipelines := by
  induction pipelines generalizing position with
  | nil => rfl
  | cons pipeline rest ih => rw [runPipelines, runPipelines, runGroups_withDrivers same, ih]

/-- **Moves are possible alike with other drivers** that have the same routes. -/
theorem Move.withDrivers {stage : Stage} {st st' : RunState World} (h : s.Move stage st st') :
    (s.withDrivers table).Move stage st st' := by
  cases h with
  | force ready asks new => exact .force ready.withDrivers asks new
  | block ready blocked => exact .block ready.withDrivers blocked
  | refuse ready complete route => exact .refuse ready.withDrivers complete ((same _).trans route)
  | call ready complete route => exact .call ready.withDrivers complete ((same _).trans route)
  | finish task called answered unended =>
    exact .finish ((s.task?_withDrivers table stage _ _).trans task) called answered unended
  | log entry => exact .log entry
  | arrive => exact .arrive
  | elapse delay => exact .elapse delay

theorem Moves.withDrivers {stage : Stage} {st st' : RunState World} (h : s.Moves stage st st') :
    (s.withDrivers table).Moves stage st st' := by
  induction h with
  | refl => exact .refl
  | tail _ move ih => exact ih.tail (Move.withDrivers same move)

theorem RunsGroups.withDrivers {pipeline position : Nat} {previous : Option Envelope}
    {groups : List Group} {st st' : RunState World} {result : Envelope}
    (h : s.RunsGroups pipeline position previous groups st result st') :
    (s.withDrivers table).RunsGroups pipeline position previous groups st result st' := by
  induction h with
  | empty => exact .empty
  | done => exact .done
  | abort entry moves outcome aborts =>
    rw [← outcome?_withDrivers s table] at outcome
    exact .abort entry (Moves.withDrivers same moves) outcome aborts
  | next entry moves outcome goes _ ih =>
    rw [← outcome?_withDrivers s table] at outcome
    exact .next entry (Moves.withDrivers same moves) outcome goes ih

theorem RunsPipelines.withDrivers {position : Nat} {pipelines : List Pipeline}
    {st st' : RunState World} {results : List Envelope}
    (h : s.RunsPipelines position pipelines st results st') :
    (s.withDrivers table).RunsPipelines position pipelines st results st' := by
  induction h with
  | done => exact .done
  | next first _ ih => exact .next (first.withDrivers same) ih

end SameRoutes

end Session

namespace Engine

variable {e : Engine World} {context : Context} {world : World}

/-! ## Programs -/

/-- **Every run makes permitted calls only**, in whatever order its moves are made. -/
theorem MayRun.callsAsPermitted {p : Program} {time : String} {results : List Envelope}
    {st : RunState World} (run : e.MayRun p context time world results st) :
    e.CallsAsPermitted p.stepAt? context world st.trace st.world where
  permitted := by
    intro site call called
    cases run.explained _ called with
    | @called _ task found _ has complete routed =>
      obtain ⟨step, there, same⟩ := Option.map_eq_some_iff.mp has
      refine ⟨step, there, ?_⟩
      rw [← same] at routed
      exact Session.permits_of_destination routed
  replayed := run.dispatchesOnce.replayed

theorem MayRun.withDrivers {p : Program} {time : String} {results : List Envelope}
    {st : RunState World} {table : DriverTable World} (kept : e.KeepsAllowed context table)
    (run : e.MayRun p context time world results st) :
    (e.withDrivers table).MayRun p context time world results st :=
  Session.RunsPipelines.withDrivers
    (Session.route_withDrivers (s := ⟨e, p.bindings, context, time⟩) kept) run

/-! ## Steps by themselves -/

namespace CallsAsPermitted

variable {stepAt? : Occurrence → Option Step} {trace : Trace} {final : World}

/-- Events that are no calls are added. -/
theorem append (h : e.CallsAsPermitted stepAt? context world trace final) {added : Trace}
    (quiet : ∀ event ∈ added, event.caller? = none) :
    e.CallsAsPermitted stepAt? context world (trace ++ added) final := by
  induction added generalizing trace with
  | nil =>
    rw [List.append_nil]
    exact h
  | cons event rest ih =>
    obtain ⟨first, others⟩ := List.forall_mem_cons.mp quiet
    rw [← List.singleton_append, ← List.append_assoc]
    refine ih ⟨fun site call called => ?_, ?_⟩ others
    · rcases List.mem_append.mp called with old | new
      · exact h.permitted site call old
      · rw [← List.mem_singleton.mp new] at first
        cases first
    · rw [replay_quiet first]
      exact h.replayed

/-- A permitted call is added. -/
theorem call (h : e.CallsAsPermitted stepAt? context world trace final) {site : Occurrence}
    {call : Call} {step : Step} (here : stepAt? site = some step)
    (permits : e.Permits context step call) :
    e.CallsAsPermitted stepAt? context world (trace ++ [.called site call])
      (e.replayEvent context final (.called site call)) where
  permitted := by
    intro site' call' called
    rcases List.mem_append.mp called with old | new
    · exact h.permitted site' call' old
    · cases List.mem_singleton.mp new
      exact ⟨step, here, permits⟩
  replayed := by rw [replay_concat, ← h.replayed]

end CallsAsPermitted

/-- What an advance, and the arrival of results, preserve holds when a computation has ended. -/
theorem settle_invariant {I : RunState World → Prop} {advance : Run World (Option Envelope)}
    (advances : ∀ st, I st → I (advance.run st).2) (arrives : ∀ st delay, I st → I (st.after delay))
    (bound : Nat) (st : RunState World) (start : I st) :
    I ((Run.settle advance bound).run st).2 := by
  induction bound generalizing st with
  | zero => exact start
  | succ bound ih =>
    have advanced := advances st start
    rw [Run.settle, Session.run_bind, Session.run_get, Session.run_bind]
    generalize advance.run st = p at advanced ⊢
    obtain ⟨result, st'⟩ := p
    cases result with
    | some result => exact advanced
    | none =>
      refine ih _ ?_
      show I (if st'.trace.length = st.trace.length then st'.receive else st'.after 0)
      split
      · unfold RunState.receive
        split
        · exact arrives _ _ advanced
        · exact advanced
      · exact arrives _ _ advanced

/-- Without bindings a step that asks for some does nothing. -/
theorem gather_unbound {s : Session World} (unbound : s.bindings = []) (site : Occurrence)
    (limit : Nat) (force : (index : Nat) → index < limit → Binding → Run World (Option Envelope))
    (names : List String) (found : NameMap Value) (st : RunState World) :
    ((s.gather site limit force names found).run st).2 = st := by
  cases names with
  | nil => rfl
  | cons name rest =>
    have nowhere : lastBinding? name s.bindings = none := by
      rw [unbound]
      rfl
    rw [Session.gather, nowhere]
    rfl

/-- A step that is dispatched makes a permitted call, or none. -/
theorem dispatch_callsAsPermitted {s : Session World} (site : Occurrence) (step : Step)
    {resolved : Step} {stepAt? : Occurrence → Option Step} (here : stepAt? site = some step)
    (routed : s.destination resolved = s.destination step) {st : RunState World}
    (h : s.engine.CallsAsPermitted stepAt? s.context world st.trace st.world) :
    s.engine.CallsAsPermitted stepAt? s.context world ((s.dispatch site resolved).run st).2.trace
      ((s.dispatch site resolved).run st).2.world := by
  rw [Session.dispatch]
  cases route : s.route resolved with
  | error cause => exact h.append fun event hmem => by rw [List.mem_singleton.mp hmem]; rfl
  | ok target =>
    obtain ⟨driver, key, name⟩ := target
    let call : Call := ⟨key, name, resolved.target, resolved.params⟩
    have destination : s.destination step = .ok (call.driver, call.action) := by
      rw [← routed, Session.destination, route]
      rfl
    have more := h.call here (Session.permits_of_destination destination)
    rw [replayEvent] at more
    dsimp only [call] at more
    rw [Session.get?_of_route route] at more
    exact more

/-- **A step that is run by itself makes permitted calls only.** -/
theorem runAlone_callsAsPermitted (e : Engine World) (step : Step) (context : Context)
    (world : World) : e.CallsAsPermitted step.alone? context world
      (e.runAlone step context world).1.trace (e.runAlone step context world).2 := by
  let s : Session World := ⟨e, [], context, ""⟩
  have advances (st : RunState World)
      (h : e.CallsAsPermitted step.alone? context world st.trace st.world) :
      e.CallsAsPermitted step.alone? context world
        ((s.advanceStep 0 .alone step none).run st).2.trace
        ((s.advanceStep 0 .alone step none).run st).2.world := by
    have ended (ending : Ending) : e.CallsAsPermitted step.alone? context world
        ((Session.finish .alone ending).run st).2.trace
        ((Session.finish .alone ending).run st).2.world :=
      h.append fun event hmem => by rw [List.mem_singleton.mp hmem]; rfl
    rw [Session.advanceStep, Session.run_bind, Session.run_get]
    dsimp only
    split
    · exact h
    · exact ended _
    · exact h
    · rw [Session.run_bind, gather_unbound rfl]
      split
      · exact h
      · exact ended _
      · refine dispatch_callsAsPermitted (s := s) .alone step ?_ ?_ h
        · rfl
        · rfl
  have arrives (st : RunState World) (delay : Nat)
      (h : e.CallsAsPermitted step.alone? context world st.trace st.world) :
      e.CallsAsPermitted step.alone? context world (st.after delay).trace (st.after delay).world := by
    refine h.append fun event hmem => ?_
    obtain ⟨_, -, rfl⟩ := List.mem_map.mp hmem
    rfl
  have start : e.CallsAsPermitted step.alone? context world (initial world).trace
      (initial world).world := ⟨fun _ _ hmem => absurd hmem List.not_mem_nil, rfl⟩
  exact settle_invariant (I := fun st =>
    e.CallsAsPermitted step.alone? context world st.trace st.world) advances arrives
    (s.advanceBound 1) (initial world) start

/-! ## Every run -/

/-- **Every call is permitted and sent to the right driver**, for every run of a program and for
every step by itself. Drivers that serve no allowed node may be replaced by any others: all that is
seen of a run stays the same. -/
theorem run_permitted (e : Engine World) (context : Context) (world : World) :
    (∀ p time,
      e.CallsAsPermitted p.stepAt? context world (e.run p context time world).1.trace
        (e.run p context time world).2 ∧
      ∀ results st, e.MayRun p context time world results st →
        e.CallsAsPermitted p.stepAt? context world st.trace st.world) ∧
    (∀ step, e.CallsAsPermitted step.alone? context world
      (e.runAlone step context world).1.trace (e.runAlone step context world).2) ∧
    ∀ table, e.KeepsAllowed context table →
      (∀ p time, (e.withDrivers table).run p context time world = e.run p context time world ∧
        ∀ results st, (e.withDrivers table).MayRun p context time world results st ↔
          e.MayRun p context time world results st) ∧
      ∀ step, (e.withDrivers table).runAlone step context world =
        e.runAlone step context world := by
  refine ⟨fun p time => ⟨?_, fun _ _ run => run.callsAsPermitted⟩,
    fun step => runAlone_callsAsPermitted e step context world, fun table kept => ⟨?_, ?_⟩⟩
  · obtain ⟨st, run, trace, final⟩ := run_mayRun e p context time world
    rw [← trace, ← final]
    exact run.callsAsPermitted
  · intro p time
    have same := Session.route_withDrivers (s := ⟨e, p.bindings, context, time⟩) kept
    refine ⟨?_, fun results st => ⟨fun run => ?_, fun run => run.withDrivers kept⟩⟩
    · have runs := Session.runPipelines_withDrivers same 0 p.pipelines
      unfold run
      dsimp only
      rw [← runs]
      rfl
    · have back : (e.withDrivers table).KeepsAllowed context e.drivers :=
        fun key domain serves allowed => (kept key domain serves allowed).symm
      have returned := MayRun.withDrivers (e := e.withDrivers table) back run
      exact returned
  · intro step
    have same := Session.route_withDrivers (s := ⟨e, [], context, ""⟩) kept
    have advance := Session.advanceStep_withDrivers same 0 .alone step none
    unfold runAlone
    dsimp only
    rw [← advance]
    rfl

/-- An engine with a node that a driver of its own serves and one that a package serves. -/
def posting (source : Driver Unit) : Engine Unit where
  registry := .ofNodes [(Node.ofId "source").withAction "echo" (.code ""),
    (Node.ofId "mail").withAction "send" ⟨.package "post" "deliver", "", none⟩]
  drivers := (DriverTable.empty.register (.node "source") source).register (.package "post") .echo
  settings := .default

/-- Nothing but the mail may be used. -/
def mailOnly : Context :=
  { Context.ofRun "r" with allowedNodes := some (NameSet.add .empty "mail") }

theorem keepsAllowed_posting (source other : Driver Unit) :
    (posting source).KeepsAllowed mailOnly (posting other).drivers := by
  rintro key domain ⟨node, name, action, found, named, rfl⟩ allowed
  obtain rfl : domain = "mail" := by
    rcases (NameSet.contains_add .empty "mail" domain).mp allowed with same | before
    · exact same
    · cases before
  cases found
  rw [Node.withAction, NameMap.get?_insert] at named
  split at named
  · cases named
    rfl
  · cases named

/-- A step of a node that may not be used, and one of the mail to fall back to. -/
def newsletter : Program where
  bindings := []
  pipelines := [⟨[.fallback [.single ((Step.ofRoute "source" "echo").withTarget "news"),
    .single ((Step.ofRoute "mail" "send").withTarget "news")]]⟩]

/-- A driver that answers without data. -/
def terse : Driver Unit :=
  ⟨fun _ world => ((Reply.answered .done).atOnce, world), []⟩

/-- What may not be used is not called, and might as well be another driver; what is done instead
goes to the package, by the name of its tool. -/
theorem run_permitted_mail :
    ((posting .echo).run newsletter mailOnly "" ()).1.trace.filter (Event.caller? · |>.isSome) =
        [.called (.leaf 0 0 [1]) ⟨.package "post", "deliver", some "news", []⟩] ∧
      ((posting .echo).withDrivers (posting terse).drivers).run newsletter mailOnly "" () =
        (posting .echo).run newsletter mailOnly "" () ∧
      ∃ results st, (posting .echo).MayRun newsletter mailOnly "" () results st ∧
        (posting .echo).CallsAsPermitted newsletter.stepAt? mailOnly () st.trace st.world := by
  obtain ⟨st, run, -, -⟩ := run_mayRun (posting .echo) newsletter mailOnly "" ()
  obtain ⟨permitted, -, others⟩ := run_permitted (posting .echo) mailOnly ()
  have replaced := (others _ (keepsAllowed_posting .echo terse)).1 newsletter ""
  exact ⟨by decide +kernel, replaced.1, _, st, run, (permitted newsletter "").2 _ st run⟩

end Engine

end CapabilityPipeline
