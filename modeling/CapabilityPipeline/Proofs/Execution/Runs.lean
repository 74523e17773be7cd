import CapabilityPipeline.Proofs.Execution.Progress

/-!
# Runs in any order

A run of a program makes moves until a group has its envelope, logs the group and goes on with the
next. In which order the steps of a group move is left open: what holds of these runs holds
however the branches of a group take turns. The engine makes one of them.

Results:

* `Engine.MayRun`: the runs of a program, in any order of the moves.
* `Engine.MayRun.executed`: whatever a run has begun has been executed to its end.
* `Engine.MayRun.invariant`: what every move preserves holds at the end of every run.
* `Engine.run_mayRun`: the engine makes one of these runs.
-/

namespace CapabilityPipeline

/-- A stage runs a group where it stands in a program. -/
def Program.HasStage (p : Program) (stage : Stage) : Prop :=
  ∃ pipeline, p.pipelines[stage.pipeline]? = some pipeline ∧
    pipeline.groups[stage.group]? = some stage.body

namespace Session

variable {World : Type}

/-! ## Pipelines and programs -/

/-- The groups of a pipeline from a position on are run, in any order of the moves within each. -/
inductive RunsGroups (s : Session World) (pipeline : Nat) : (position : Nat) →
    (previous : Option Envelope) → List Group → RunState World → Envelope → RunState World → Prop
  | empty {position : Nat} {st : RunState World} :
      RunsGroups s pipeline position none [] st (.failed "pipeline has no groups") st
  | done {position : Nat} {result : Envelope} {st : RunState World} :
      RunsGroups s pipeline position (some result) [] st result st
  | abort {position : Nat} {previous : Option Envelope} {group : Group} {rest : List Group}
      {st st' : RunState World} {result : Envelope} (entry : LogEntry)
      (moves : s.Moves ⟨pipeline, position, previous.map Envelope.payload, group⟩ st st')
      (outcome : s.outcome? st'.trace pipeline position [] group = some result)
      (aborts : (!result.success && s.engine.settings.failure = .abort) = true) :
      RunsGroups s pipeline position previous (group :: rest) st result
        (observed st' (.logged entry))
  | next {position : Nat} {previous : Option Envelope} {group : Group} {rest : List Group}
      {st st' last : RunState World} {result final : Envelope} (entry : LogEntry)
      (moves : s.Moves ⟨pipeline, position, previous.map Envelope.payload, group⟩ st st')
      (outcome : s.outcome? st'.trace pipeline position [] group = some result)
      (goes : ¬(!result.success && s.engine.settings.failure = .abort) = true)
      (others : RunsGroups s pipeline (position + 1) (some result) rest
        (observed st' (.logged entry)) final last) :
      RunsGroups s pipeline position previous (group :: rest) st final last

/-- Pipelines are run, of which the first has the given position. -/
inductive RunsPipelines (s : Session World) : (position : Nat) → List Pipeline →
    RunState World → List Envelope → RunState World → Prop
  | done {position : Nat} {st : RunState World} : RunsPipelines s position [] st [] st
  | next {position : Nat} {pipeline : Pipeline} {rest : List Pipeline}
      {st st' last : RunState World} {result : Envelope} {results : List Envelope}
      (first : s.RunsGroups position 0 none pipeline.groups st result st')
      (others : RunsPipelines s (position + 1) rest st' results last) :
      RunsPipelines s position (pipeline :: rest) st (result :: results) last

/-! ## Between groups -/

variable {s : Session World}

/-- The invariant holds whichever group comes next. -/
def Rests (s : Session World) (st : RunState World) : Prop :=
  ∀ stage, s.Sound stage st

/-- A group that has its envelope has been logged. -/
theorem Sound.rests {stage : Stage} {st : RunState World} (h : s.Sound stage st)
    {result : Envelope}
    (outcome : s.outcome? st.trace stage.pipeline stage.group [] stage.body = some result)
    (entry : LogEntry) : s.Rests (observed st (.logged entry)) :=
  fun next => (h.next outcome next).move (.log entry)

theorem RunsGroups.rests {pipeline position : Nat} {previous : Option Envelope}
    {groups : List Group} {st st' : RunState World} {result : Envelope}
    (h : s.RunsGroups pipeline position previous groups st result st') (start : s.Rests st) :
    s.Rests st' := by
  induction h with
  | empty => exact start
  | done => exact start
  | abort entry moves outcome aborts => exact ((start _).moves moves).rests outcome entry
  | next entry moves outcome goes others ih =>
    exact ih (((start _).moves moves).rests outcome entry)

theorem RunsPipelines.rests {position : Nat} {pipelines : List Pipeline} {st st' : RunState World}
    {results : List Envelope} (h : s.RunsPipelines position pipelines st results st')
    (start : s.Rests st) : s.Rests st' := by
  induction h with
  | done => exact start
  | next first others ih => exact ih (first.rests start)

/-- Between groups a binding that has been asked for has been evaluated: a step that waits for it
has a task whichever group comes next, so that it is a later binding, which has been asked for too. -/
theorem Rests.evaluated {st : RunState World} (rests : s.Rests st) {site : Occurrence} {index : Nat}
    (forced : .forced site index ∈ st.trace) :
    ∃ ending, st.trace.ending? (.binding index) = some ending := by
  induction remaining : s.bindings.length - index using Nat.strongRecOn generalizing index site with
  | ind n ih =>
    cases unended : st.trace.ending? (.binding index) with
    | some ending => exact ⟨ending, rfl⟩
    | none =>
      have unknown : st.trace.value? index = none := by
        rw [Trace.value?, unended]
        rfl
      cases site with
      | leaf pipeline group path =>
        obtain ⟨task, ready, -⟩ :=
          (rests ⟨pipeline + 1, group, none, .parallel []⟩).waits _ index forced unknown
        obtain ⟨same, -⟩ := task?_leaf ready.task
        dsimp only at same
        omega
      | binding later =>
        obtain ⟨task, ready, asks⟩ := (rests ⟨0, 0, none, .parallel []⟩).waits _ index forced unknown
        obtain ⟨⟨keeper, kept⟩, b, found, rfl⟩ := task?_binding ready.task
        have less := asks.visible
        have within := (List.getElem?_eq_some_iff.mp found).1
        dsimp only at less
        obtain ⟨ending, ended⟩ := ih _ (by omega) (Trace.mem_of_keeper? kept) rfl
        rw [ready.unended] at ended
        cases ended
      | alone =>
        obtain ⟨task, ready, -⟩ := (rests ⟨0, 0, none, .parallel []⟩).waits _ index forced unknown
        cases ready.task

/-! ## Executed steps -/

/-- Every step that something has happened for has been executed to its end. -/
def Executed (trace : Trace) : Prop :=
  ∀ event ∈ trace, ∀ site, event.step? = some site → ∃ ending, .ended site ending ∈ trace

/-- When a group has its envelope, every step that has had its turn has ended: a binding too, for
the step that evaluates a binding does not end before it. -/
theorem Sound.task_ended {stage : Stage} {st : RunState World} (h : s.Sound stage st)
    {result : Envelope}
    (outcome : s.outcome? st.trace stage.pipeline stage.group [] stage.body = some result)
    {site : Occurrence} {task : Task} (ready : s.task? stage st.trace site = some task) :
    ∃ ending, st.trace.ending? site = some ending := by
  cases site with
  | leaf => exact leaf_ended outcome ready
  | alone => cases ready
  | binding index =>
    induction remaining : s.bindings.length - index using Nat.strongRecOn
      generalizing index task with
    | ind n ih =>
      obtain ⟨⟨keeper, kept⟩, -⟩ := task?_binding ready
      cases unended : st.trace.ending? (.binding index) with
      | some ending => exact ⟨ending, rfl⟩
      | none =>
        have unknown : st.trace.value? index = none := by
          rw [Trace.value?, unended]
          rfl
        obtain ⟨task', ready', asks⟩ := h.waits keeper index (Trace.mem_of_keeper? kept) unknown
        have ended : ∃ ending, st.trace.ending? keeper = some ending := by
          cases keeper with
          | binding later =>
            obtain ⟨-, b, found, rfl⟩ := task?_binding ready'.task
            have less := asks.visible
            have known := (List.getElem?_eq_some_iff.mp found).1
            exact ih _ (by dsimp only at less; omega) later ready'.task rfl
          | leaf => exact leaf_ended outcome ready'.task
          | alone => cases ready'.task
        obtain ⟨ending, done⟩ := ended
        rw [ready'.unended] at done
        cases done

/-- A group that has been run and logged leaves no step behind. -/
theorem Sound.executed {stage : Stage} {st st' : RunState World} (h : s.Sound stage st)
    (moves : s.Moves stage st st') {result : Envelope}
    (outcome : s.outcome? st'.trace stage.pipeline stage.group [] stage.body = some result)
    (before : Executed st.trace) (entry : LogEntry) :
    Executed (observed st' (.logged entry)).trace := by
  obtain ⟨added, same, about⟩ := h.moves_events moves
  intro event hmem site step
  have ended : ∃ ending, .ended site ending ∈ st'.trace := by
    rcases List.mem_append.mp hmem with earlier | logged
    · rw [same] at earlier
      rcases List.mem_append.mp earlier with old | new
      · obtain ⟨ending, done⟩ := before event old site step
        exact ⟨ending, moves.trace_prefix.subset done⟩
      · obtain ⟨task, ready, -⟩ := about event new site step
        obtain ⟨ending, done⟩ := (h.moves moves).task_ended outcome ready
        exact ⟨ending, Trace.mem_of_ending? done⟩
    · rw [List.mem_singleton.mp logged] at step
      cases step
  obtain ⟨ending, done⟩ := ended
  exact ⟨ending, List.mem_append_left _ done⟩

theorem RunsGroups.executed {pipeline position : Nat} {previous : Option Envelope}
    {groups : List Group} {st st' : RunState World} {result : Envelope}
    (h : s.RunsGroups pipeline position previous groups st result st') (rests : s.Rests st)
    (before : Executed st.trace) : Executed st'.trace := by
  induction h with
  | empty => exact before
  | done => exact before
  | abort entry moves outcome aborts => exact (rests _).executed moves outcome before entry
  | next entry moves outcome goes others ih =>
    have after := ((rests _).moves moves).rests outcome entry
    exact ih after ((rests _).executed moves outcome before entry)

theorem RunsPipelines.executed {position : Nat} {pipelines : List Pipeline}
    {st st' : RunState World} {results : List Envelope}
    (h : s.RunsPipelines position pipelines st results st') (rests : s.Rests st)
    (before : Executed st.trace) : Executed st'.trace := by
  induction h with
  | done => exact before
  | next first others ih => exact ih (first.rests rests) (first.executed rests before)

/-! ## Invariants -/

section Invariant

variable {I : RunState World → Prop}

theorem Moves.invariant {stage : Stage} {st st' : RunState World} (h : s.Moves stage st st')
    (sound : s.Sound stage st) (start : I st)
    (step : ∀ mid mid', s.Sound stage mid → I mid → s.Move stage mid mid' → I mid') : I st' := by
  induction h with
  | refl => exact start
  | tail moves move ih => exact step _ _ (sound.moves moves) ih move

theorem RunsGroups.invariant {pipeline position : Nat} {previous : Option Envelope}
    {groups : List Group} {st st' : RunState World} {result : Envelope}
    (h : s.RunsGroups pipeline position previous groups st result st') (rests : s.Rests st)
    (start : I st)
    (step : ∀ index group, groups[index]? = some group → ∀ payload mid mid',
      s.Sound ⟨pipeline, position + index, payload, group⟩ mid → I mid →
      s.Move ⟨pipeline, position + index, payload, group⟩ mid mid' → I mid') : I st' := by
  induction h with
  | empty => exact start
  | done => exact start
  | abort entry moves outcome aborts =>
    have sound := (rests _).moves moves
    have reached := moves.invariant (rests _) start (step 0 _ rfl _)
    exact step 0 _ rfl _ _ _ sound reached (.log entry)
  | next entry moves outcome goes others ih =>
    have sound := (rests _).moves moves
    have reached := moves.invariant (rests _) start (step 0 _ rfl _)
    refine ih (sound.rests outcome entry) (step 0 _ rfl _ _ _ sound reached (.log entry)) ?_
    intro index group found
    rw [Nat.add_assoc, Nat.add_comm 1]
    exact step (index + 1) group found

theorem RunsPipelines.invariant {position : Nat} {pipelines : List Pipeline}
    {st st' : RunState World} {results : List Envelope}
    (h : s.RunsPipelines position pipelines st results st') (rests : s.Rests st) (start : I st)
    (step : ∀ index pipeline, pipelines[index]? = some pipeline →
      ∀ place group, pipeline.groups[place]? = some group → ∀ payload mid mid',
      s.Sound ⟨position + index, place, payload, group⟩ mid → I mid →
      s.Move ⟨position + index, place, payload, group⟩ mid mid' → I mid') : I st' := by
  induction h with
  | done => exact start
  | next first others ih =>
    refine ih (first.rests rests) (first.invariant rests start ?_) ?_
    · intro place group found
      rw [Nat.zero_add]
      exact step 0 _ rfl place group found
    · intro index pipeline found
      rw [Nat.add_assoc, Nat.add_comm 1]
      exact step (index + 1) pipeline found

end Invariant

/-! ## The engine -/

/-- Running the groups of a pipeline is one of the runs in any order. -/
theorem runGroups_runs (pipeline position : Nat) (previous : Option Envelope)
    (groups : List Group) (st : RunState World) (rests : s.Rests st) :
    s.RunsGroups pipeline position previous groups st
      ((s.runGroups pipeline position previous groups).run st).1
      ((s.runGroups pipeline position previous groups).run st).2 := by
  induction groups generalizing position previous st with
  | nil =>
    cases previous with
    | none => exact .empty
    | some result => exact .done
  | cons group rest ih =>
    have ends := runGroup_spec (rests ⟨pipeline, position, previous.map Envelope.payload, group⟩)
    rw [runGroups, run_bind]
    dsimp only at ends
    generalize (s.runGroup pipeline position (previous.map Envelope.payload) group).run st = p
      at ends ⊢
    obtain ⟨result, st'⟩ := p
    obtain ⟨moves, outcome⟩ := ends
    dsimp only at moves outcome ⊢
    rw [run_bind]
    by_cases aborts : (!result.success && s.engine.settings.failure = .abort) = true
    · rw [if_pos aborts]
      exact .abort _ moves outcome aborts
    · rw [if_neg aborts]
      exact .next _ moves outcome aborts
        (ih (position + 1) (some result) _ (((rests _).moves moves).rests outcome _))

/-- Running pipelines is one of the runs in any order. -/
theorem runPipelines_runs (position : Nat) (pipelines : List Pipeline) (st : RunState World)
    (rests : s.Rests st) :
    s.RunsPipelines position pipelines st ((s.runPipelines position pipelines).run st).1
      ((s.runPipelines position pipelines).run st).2 := by
  induction pipelines generalizing position st with
  | nil => exact .done
  | cons pipeline rest ih =>
    have first := s.runGroups_runs position 0 none pipeline.groups st rests
    rw [runPipelines, run_bind]
    generalize (s.runGroups position 0 none pipeline.groups).run st = p at first ⊢
    obtain ⟨result, st'⟩ := p
    have others := ih (position + 1) st' (first.rests rests)
    rw [run_bind]
    generalize (s.runPipelines (position + 1) rest).run st' = q at others ⊢
    exact .next first others

end Session

namespace Engine

variable {World : Type}

/-- A program can be run in a world with these results and this final state, when the moves are
made in some order. -/
def MayRun (e : Engine World) (p : Program) (context : Context) (time : String) (world : World)
    (results : List Envelope) (st : RunState World) : Prop :=
  Session.RunsPipelines ⟨e, p.bindings, context, time⟩ 0 p.pipelines (initial world) results st

variable {e : Engine World} {p : Program} {context : Context} {time : String} {world : World}

/-- **What every move preserves holds at the end of every run.** -/
theorem MayRun.invariant {results : List Envelope} {st : RunState World}
    (run : e.MayRun p context time world results st) {I : RunState World → Prop}
    (start : I (initial world))
    (step : ∀ stage, p.HasStage stage → ∀ mid mid',
      Session.Sound ⟨e, p.bindings, context, time⟩ stage mid → I mid →
      Session.Move ⟨e, p.bindings, context, time⟩ stage mid mid' → I mid') : I st := by
  refine Session.RunsPipelines.invariant run (fun stage => .initial _ stage world) start ?_
  intro index pipeline hpipeline place group hgroup payload
  rw [Nat.zero_add]
  exact step _ ⟨pipeline, hpipeline, hgroup⟩

/-- **A run leaves no step behind**: whatever it has begun has been executed to its end. -/
theorem MayRun.executed {results : List Envelope} {st : RunState World}
    (run : e.MayRun p context time world results st) : Session.Executed st.trace :=
  Session.RunsPipelines.executed run (fun stage => .initial _ stage world)
    fun _ hmem => absurd hmem List.not_mem_nil

/-- **The engine makes one of the runs of a program.** -/
theorem run_mayRun (e : Engine World) (p : Program) (context : Context) (time : String)
    (world : World) : ∃ st, e.MayRun p context time world (e.run p context time world).1.results st ∧
      st.trace = (e.run p context time world).1.trace ∧
      st.world = (e.run p context time world).2 :=
  ⟨_, Session.runPipelines_runs 0 p.pipelines _ fun stage => .initial _ stage world, rfl, rfl⟩

/-! ## A small program -/

/-- An engine with one node of one action, whose driver answers with the request. -/
def echoing : Engine Unit where
  registry := .ofNodes [(Node.ofId "source").withAction "echo" (.code "")]
  drivers := DriverTable.empty.register (.node "source") .echo
  settings := .default

end Engine

/-- Two bindings that mention a third, one of which has no action, and steps that mention all of
them side by side. -/
def Program.diamond : Program where
  bindings := [⟨"x", Step.ofRoute "source" "echo"⟩,
    ⟨"y", (Step.ofRoute "source" "echo").withTarget "$x"⟩,
    ⟨"z", (Step.ofRoute "source" "lose").withTarget "$x"⟩]
  pipelines := [
    ⟨[.parallel [.single ((Step.ofRoute "source" "echo").withTarget "$x and $y"),
      .single ((Step.ofRoute "source" "echo").withTarget "$y")]]⟩,
    ⟨[.fallback [.single ((Step.ofRoute "source" "echo").withTarget "$z"),
      .single ((Step.ofRoute "source" "echo").withTarget "$x")],
      .single ((Step.ofRoute "source" "echo").withTarget "$z")]⟩]

end CapabilityPipeline
