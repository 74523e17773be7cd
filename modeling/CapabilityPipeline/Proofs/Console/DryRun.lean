import CapabilityPipeline.Console.Tasks
import CapabilityPipeline.Proofs.Execution.Failure
import CapabilityPipeline.Proofs.Execution.Permitted
import CapabilityPipeline.Proofs.Registry.Runs

/-!
# Dry runs

A dry run answers every call with the request. It has a driver for every node of the registry and
for every package that serves an action, installed or not, and these are all the drivers that the
registry can send a call to. So a dry run checks the routes of a program and nothing else: a step
fails exactly if its action is not defined, or that of a binding that it references is not. What a
dry run prints is what such a run reports.

Results:

* `get?_echoDrivers`: the drivers of a dry run.
* `get?_echoDrivers_of_serves`: every registration that the registry sends calls to has one.
* `ChecksRoutes`: what a run reports that checks routes.
* `execute_eq_ok`: a session that executes a program ends with what the run reports.
* `dryRun_checksRoutes`: a dry run checks routes.
-/

namespace CapabilityPipeline

/-! ## Tables of drivers -/

namespace DriverTable

variable {World : Type}

theorem get?_register (t : DriverTable World) (key other : DriverKey) (d : Driver World) :
    (t.register key d).get? other = if other = key then some d else t.get? other := by
  cases key with
  | node id =>
    cases other with
    | node id' =>
      simp only [DriverKey.node.injEq]
      exact NameMap.get?_insert t.nodes id id' d
    | package id' => rfl
  | package id =>
    cases other with
    | node id' => rfl
    | package id' =>
      simp only [DriverKey.package.injEq]
      exact NameMap.get?_insert t.packages id id' d

/-- A driver that is registered for many keys is found for these. -/
theorem get?_foldl_register {α : Type} (key : α → DriverKey) (d : Driver World) (l : List α)
    (t : DriverTable World) (other : DriverKey) :
    (l.foldl (fun t a => t.register (key a) d) t).get? other =
      if other ∈ l.map key then some d else t.get? other := by
  induction l generalizing t with
  | nil => rfl
  | cons a rest ih =>
    rw [List.foldl_cons, ih, get?_register, List.map_cons]
    by_cases later : other ∈ rest.map key
    · rw [if_pos later, if_pos (List.mem_cons_of_mem _ later)]
    · rw [if_neg later]
      by_cases here : other = key a
      · rw [if_pos here, if_pos (here ▸ List.mem_cons_self ..)]
      · rw [if_neg here, if_neg fun mem => (List.mem_cons.mp mem).elim here later]

end DriverTable

namespace Console

open Json (Value)

/-! ## Drivers that echo -/

theorem get?_echoDrivers (snapshot : Snapshot) (key : DriverKey) :
    (echoDrivers snapshot).get? key =
      if key ∈ (snapshot.list true).map (fun n => .node n.id) ∨
          key ∈ snapshot.packages.keys.map .package then some Driver.echo else none := by
  unfold echoDrivers
  dsimp only
  rw [DriverTable.get?_foldl_register (fun id => .package id), DriverTable.get?_foldl_register
    (fun n : Node => .node n.id)]
  have none : (DriverTable.empty : DriverTable FileTree).get? key = none := by cases key <;> rfl
  rw [none]
  by_cases package : key ∈ snapshot.packages.keys.map .package
  · rw [if_pos package, if_pos (.inr package)]
  · rw [if_neg package]
    by_cases node : key ∈ (snapshot.list true).map (fun n => .node n.id)
    · rw [if_pos node, if_pos (.inl node)]
    · rw [if_neg node, if_neg fun either => either.elim node package]

/-- **Every registration that the registry sends calls to has a driver**, whether the action is
served by its node, which may stand for an agent, or by a package. -/
theorem get?_echoDrivers_of_serves {snapshot : Snapshot} (named : NodesNamed snapshot.nodes)
    {key : DriverKey} {domain : String} (h : snapshot.Serves key domain) :
    (echoDrivers snapshot).get? key = some Driver.echo := by
  obtain ⟨node, name, action, found, defined, rfl⟩ := h
  have listed : node ∈ snapshot.nodes.values :=
    List.mem_map.mpr ⟨(domain, node), NameMap.mem_entries.mpr found, rfl⟩
  rw [get?_echoDrivers]
  refine if_pos ?_
  cases handler : action.handler with
  | code =>
    refine .inl (List.mem_map.mpr ⟨node, List.mem_filter.mpr ⟨listed, rfl⟩, ?_⟩)
    rw [named domain node found]
    rfl
  | package packageId tool =>
    refine .inr (List.mem_map.mpr ⟨packageId, NameSet.mem_keys_ofNames.mpr ?_, rfl⟩)
    refine List.mem_flatMap.mpr ⟨node, listed, List.mem_filterMap.mpr ⟨action, ?_, ?_⟩⟩
    · exact List.mem_map.mpr ⟨(name, action), NameMap.mem_entries.mpr defined, rfl⟩
    · rw [handler]
      rfl

/-- The engine of a dry run. -/
def dryEngine (snapshot : Snapshot) (settings : Settings) : Engine FileTree :=
  ⟨snapshot, echoDrivers snapshot, settings⟩

/-- The drivers of a dry run answer at once, so that no limit is passed. -/
theorem dryEngine_neverFails (snapshot : Snapshot) (settings : Settings) :
    (dryEngine snapshot settings).NeverFails := by
  intro key driver registered request world site route
  have echo : driver = Driver.echo := by
    rw [dryEngine, get?_echoDrivers] at registered
    split at registered
    · exact (Option.some.inj registered).symm
    · cases registered
  subst echo
  cases timeout : (dryEngine snapshot settings).settings.timeoutMs with
  | none => rfl
  | some ms => simp [Driver.echo, Reply.atOnce, Served.delivery, Reply.envelope, Envelope.succeeded]

/-! ## Routes -/

/-- A dry run routes a step to the destination of its action, if the registry defines it. -/
theorem destination_dryEngine {snapshot : Snapshot} (named : NodesNamed snapshot.nodes)
    (settings : Settings) (bindings : List Binding) (runId time : String) (step : Step) :
    Session.destination ⟨dryEngine snapshot settings, bindings, .ofRun runId, time⟩ step =
      match snapshot.route step.domain step.action with
      | .ok action => .ok (action.handler.destination step.domain step.action)
      | .error cause => .error (.lookup cause) := by
  rw [Session.destination, Session.route]
  refine (congrArg (Except.map Prod.snd) (if_pos rfl)).trans ?_
  dsimp only [dryEngine]
  cases routed : snapshot.route step.domain step.action with
  | error cause => rfl
  | ok action =>
    have registered := get?_echoDrivers_of_serves named (Snapshot.serves_of_route routed)
    dsimp only
    rw [DriverTable.resolve]
    dsimp only
    rw [registered]
    rfl

/-- The step at an occurrence asks for an action that is not defined. -/
def Undefined (snapshot : Snapshot) (p : Program) (site : Occurrence) : Prop :=
  ∃ step cause, p.stepAt? site = some step ∧ snapshot.route step.domain step.action = .error cause

/-- In a dry run the steps without a driver are those without an action. -/
theorem unserved_dryEngine_iff {snapshot : Snapshot} (named : NodesNamed snapshot.nodes)
    {settings : Settings} {p : Program} {runId time : String} {site : Occurrence} :
    Session.Unserved ⟨dryEngine snapshot settings, p.bindings, .ofRun runId, time⟩ p site ↔
      Undefined snapshot p site := by
  constructor
  · rintro ⟨step, error, found, unrouted⟩
    rw [destination_dryEngine named] at unrouted
    split at unrouted
    · cases unrouted
    · next cause undefined => exact ⟨step, cause, found, undefined⟩
  · rintro ⟨step, cause, found, undefined⟩
    refine ⟨step, .lookup cause, found, ?_⟩
    rw [destination_dryEngine named, undefined]

/-! ## What a dry run checks -/

/-- A run has checked the routes of a program and nothing else. -/
structure ChecksRoutes (snapshot : Snapshot) (p : Program) (trace : Trace) : Prop where
  /-- Every step that has been begun has been evaluated. -/
  executed : Session.Executed trace
  /-- No step has failed for want of a driver. -/
  driven : ∀ site key, .ended site (.refused (.noDriver key)) ∉ trace
  /-- A step fails exactly if its action is not defined, or a binding that it references fails. -/
  fails_iff : ∀ site ending, .ended site ending ∈ trace →
    (ending.envelope.success = false ↔
      Undefined snapshot p site ∨ ∃ index, p.References site index ∧ trace.Failed (.binding index))
  /-- A step fails exactly if its action is not defined, or that of a binding that it references
  is not. -/
  foretold : ∀ site ending, .ended site ending ∈ trace →
    (ending.envelope.success = false ↔ Undefined snapshot p site ∨
      ∃ index, p.References site index ∧ Undefined snapshot p (.binding index))

/-- **Every dry run checks routes**, in whatever order its moves are made. -/
theorem checksRoutes_of_mayRun {snapshot : Snapshot} (named : NodesNamed snapshot.nodes)
    {settings : Settings} {p : Program} (sees : p.Scoped) {runId time : String} {world : FileTree}
    {results : List Envelope} {st : RunState FileTree}
    (run : (dryEngine snapshot settings).MayRun p (.ofRun runId) time world results st) :
    ChecksRoutes snapshot p st.trace where
  executed := run.executed
  driven := by
    intro site key ended
    cases run.explained _ ended with
    | refused has complete routed =>
      rw [destination_dryEngine named] at routed
      split at routed <;> cases routed
    | blocked has blocked =>
      obtain ⟨step, found, rfl⟩ := Option.map_eq_some_iff.mp has
      obtain ⟨name, -, index, b, result, -, -, -, other⟩ :=
        ask_blocked_cause (sees site step found) blocked
      cases other
  fails_iff := by
    intro site ending ended
    rw [run.fails_iff (dryEngine_neverFails snapshot settings) sees ended,
      unserved_dryEngine_iff named]
  foretold := by
    intro site ending ended
    rw [run.fails_iff_unserved (dryEngine_neverFails snapshot settings) sees ended,
      unserved_dryEngine_iff named]
    simp only [unserved_dryEngine_iff named]

theorem openRegistry_eq_ok {s : Surroundings} {i : Invocation} {r : Registry} :
    openRegistry s i = .ok r ↔
      Registry.openStore ⟨i.registryDir⟩ i.packagesDir s.files = .ok r :=
  mapError_eq_ok

/-! ## What a session prints -/

/-- A session ends with what a run reports: the status tells whether it has succeeded, the output
has its results, and the files are those of the run, with the log if it is wanted. -/
structure Reports (run : ProgramRun × FileTree) (log : Option String) (finish : Finish) : Prop where
  status : finish.status = if run.1.success then 0 else 1
  stdout : finish.stdout = (Value.ofList Envelope.toValue run.1.results).pretty ++ "\n"
  stderr : finish.stderr = ""
  files : log.elim (.ok run.2) (fun path => run.1.log.save path run.2) = .ok finish.files

theorem Reports.eq_of_files {run : ProgramRun × FileTree} {log : Option String} {finish : Finish}
    (reports : Reports run log finish) :
    finish = ⟨if run.1.success then 0 else 1,
      (Value.ofList Envelope.toValue run.1.results).pretty ++ "\n", "", finish.files⟩ := by
  obtain ⟨status, stdout, stderr, files⟩ := finish
  obtain ⟨rfl, rfl, rfl, -⟩ := reports
  rfl

/-- A session that executes a program ends with what the run reports, unless the log cannot be
written. -/
theorem execute_eq_ok {s : Surroundings} {e : Engine FileTree} {p : Program} {context : Context}
    {log : Option String} {finish : Finish} :
    execute s e p context log = .ok finish ↔
      Reports (e.run p context s.time s.files) log finish := by
  constructor
  · intro executed
    cases log with
    | none =>
      cases executed
      exact ⟨rfl, rfl, rfl, rfl⟩
    | some path =>
      obtain ⟨files, saved, ended⟩ := bind_eq_ok.mp executed
      cases ended
      exact ⟨rfl, rfl, rfl, mapError_eq_ok.mp saved⟩
  · intro reports
    rw [reports.eq_of_files]
    cases log with
    | none =>
      obtain kept : (e.run p context s.time s.files).2 = finish.files :=
        Except.ok.inj reports.files
      rw [← kept]
      rfl
    | some path => exact bind_eq_ok.mpr ⟨finish.files, mapError_eq_ok.mpr reports.files, rfl⟩

/-- **A dry run checks exactly the routes.** When the program, the registry and the settings can be
read, a dry run executes the program with a driver that echoes wherever the registry sends a call,
and ends with what that run reports. It runs no command. No step fails for want of a driver, and a
step fails exactly if its action is not defined or a binding that it references, directly or through
others, fails. -/
theorem dryRun_checksRoutes (commands : Commands) {s : Surroundings} {i : Invocation}
    {path : String} {log : Option String} {p : Program} {r : Registry} {settings : Settings}
    (task : i.task = .dryRun path log) (read : readProgram s path = .ok p)
    (opened : openRegistry s i = .ok r) (loaded : loadSettings s i = .ok settings) :
    perform commands s i = execute s (dryEngine r.snapshot settings) p (.ofRun s.runId) log ∧
      (∀ finish, perform commands s i = .ok finish ↔ Reports
        ((dryEngine r.snapshot settings).run p (.ofRun s.runId) s.time s.files) log finish) ∧
      ChecksRoutes r.snapshot p
        ((dryEngine r.snapshot settings).run p (.ofRun s.runId) s.time s.files).1.trace ∧
      ∀ results st,
        (dryEngine r.snapshot settings).MayRun p (.ofRun s.runId) s.time s.files results st →
        ChecksRoutes r.snapshot p st.trace := by
  obtain ⟨text, -, parsed⟩ := bind_eq_ok.mp read
  have sees := Program.scoped_of_parse (mapError_eq_ok.mp parsed)
  have named := (Registry.mirrors_iff.mpr (openRegistry_eq_ok.mp opened)).nodesNamed
  have executes : perform commands s i =
      execute s (dryEngine r.snapshot settings) p (.ofRun s.runId) log := by
    rw [perform, task]
    dsimp only
    rw [read, opened, loaded]
    rfl
  refine ⟨executes, fun finish => ?_, ?_, fun results st run => checksRoutes_of_mayRun named sees run⟩
  · rw [executes, execute_eq_ok]
  · obtain ⟨st, run, trace, -⟩ := Engine.run_mayRun (dryEngine r.snapshot settings) p
      (.ofRun s.runId) s.time s.files
    rw [← trace]
    exact checksRoutes_of_mayRun named sees run

/-- A letter for an action that the desk does not have, an answer to it, and a letter to fall back
to. -/
def letters : Program where
  bindings := [⟨"lost", Step.ofRoute "desk" "lose"⟩,
    ⟨"answer", (Step.ofRoute "desk" "send").withTarget "$lost"⟩]
  pipelines := [⟨[.fallback [.single ((Step.ofRoute "desk" "send").withTarget "$answer"),
    .single ((Step.ofRoute "desk" "send").withTarget "hello")]]⟩]

/-- A session with the letters as its input and the files of the desk. -/
def lettersAtDesk : Surroundings where
  arguments := []
  env := fun _ => none
  stdin := Text.Symbol.ofText ("$lost = [desk:lose]\n$answer = [desk:send](\"$lost\")\n" ++
    "[desk:send](\"$answer\") ?? [desk:send](\"hello\")")
  files := Registry.deskFiles
  runId := "r"
  time := ""

/-- The package that sends letters is not installed, and yet the dry run has a driver for it. Two
steps fail for the action that is missing. The letter to fall back to is the result that is printed,
whatever commands would answer. -/
theorem dryRun_checksRoutes_letters :
    let i : Invocation := ⟨"registry", "packages", none, .dryRun "-" none⟩
    let e := dryEngine Registry.deskRegistry.snapshot .default
    let trace := (e.run letters (.ofRun "r") "" Registry.deskFiles).1.trace
    let echoed : Envelope := { Envelope.succeeded (.object [
      ("action", .string "send"), ("target", .string "hello"), ("params", .object [])]) with
      summary := some "echo send" }
    perform (fun _ _ => .echo) lettersAtDesk i = execute lettersAtDesk e letters (.ofRun "r") none ∧
      (∃ finish, perform (fun _ _ => .echo) lettersAtDesk i = .ok finish ∧ finish.status = 0 ∧
        finish.stdout = (Value.ofList Envelope.toValue [echoed]).pretty ++ "\n") ∧
      ChecksRoutes Registry.deskRegistry.snapshot letters trace ∧
      trace.Failed (.binding 0) ∧ trace.Failed (.binding 1) ∧ trace.Failed (.leaf 0 0 [0]) ∧
      .ended (.leaf 0 0 [1]) (.called ⟨.package "mail", "send", some "hello", []⟩ echoed) ∈ trace := by
  have read : readProgram lettersAtDesk "-" = .ok letters := by decide +kernel
  have opened : openRegistry lettersAtDesk ⟨"registry", "packages", none, .dryRun "-" none⟩ =
      .ok Registry.deskRegistry := by
    rw [openRegistry_eq_ok, lettersAtDesk]
    exact Registry.openStore_desk
  have loaded : loadSettings lettersAtDesk ⟨"registry", "packages", none, .dryRun "-" none⟩ =
      .ok .default := by decide +kernel
  obtain ⟨performed, ends, checks, -⟩ :=
    dryRun_checksRoutes (fun _ _ => .echo) rfl read opened loaded
  refine ⟨performed, ⟨_, (ends ⟨_, _, _, _⟩).mpr ⟨rfl, rfl, rfl, rfl⟩, ?_, ?_⟩, checks,
    ?_, ?_, ?_, ?_⟩
  · decide +kernel
  · decide +kernel
  · exact ⟨.refused (.lookup (.unknownAction "desk" "lose")), by decide +kernel⟩
  · exact ⟨.bindingFailed "lost" "unknown action 'lose' on node 'desk'", by decide +kernel⟩
  · exact ⟨.bindingFailed "answer" "variable '$lost' failed: unknown action 'lose' on node 'desk'",
      by decide +kernel⟩
  · decide +kernel

end Console

end CapabilityPipeline
