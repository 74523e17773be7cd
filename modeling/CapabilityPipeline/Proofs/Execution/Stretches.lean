import CapabilityPipeline.Proofs.Execution.Runs
import CapabilityPipeline.Proofs.Execution.Telling

/-!
# Runs as they are told

The trace of a run falls into stretches, one for each group that is run, and each stretch ends with
the entry of its group. These are the runs in any order of the moves with what the engine adds to
them: which entries are written, and what they say.

Results:

* `Stretch`: what happens while a group is run, and the entry of the group.
* `Session.TellsGroups`, `Session.TellsPipelines`: runs as they are told.
* `Engine.run_tells`: the engine makes one of these runs.
-/

namespace CapabilityPipeline

/-- What happens while a group is run, and the entry that is written for the group then. -/
structure Stretch where
  events : Trace
  entry : LogEntry

/-- The part of a trace that a stretch is. -/
def Stretch.trace (stretch : Stretch) : Trace :=
  stretch.events ++ [.logged stretch.entry]

namespace Session

variable {World : Type} {s : Session World}

/-- The entry of a group that has been run. -/
def groupEntry (s : Session World) (stage : Stage) (trace : Trace) (result : Envelope) : LogEntry :=
  trace.entry (some (stage.pipeline, stage.group)) stage.body.kind stage.body.render result s.time

/-- A group is run by the engine up to where its entry is written. -/
structure GroupRun (s : Session World) (stage : Stage) (st : RunState World) (result : Envelope)
    (st' : RunState World) : Prop where
  moves : s.Moves stage st st'
  grows : s.Grows st.trace st'.trace
  outcome : s.outcome? st'.trace stage.pipeline stage.group [] stage.body = some result

/-- What comes of a group that has been run. -/
def afterGroup (s : Session World) (stage : Stage) (result : Envelope) (st : RunState World) :
    RunState World :=
  observed st (.logged (s.groupEntry stage st.trace result))

/-- The stretch of a group that has been run. -/
def stretch (s : Session World) (stage : Stage) (events : Trace) (result : Envelope)
    (st : RunState World) : Stretch :=
  ⟨events, s.groupEntry stage st.trace result⟩

theorem trace_afterGroup {stage : Stage} {st st' : RunState World} {events : Trace}
    (added : st'.trace = st.trace ++ events) (result : Envelope) :
    (s.afterGroup stage result st').trace = st.trace ++ (s.stretch stage events result st').trace := by
  rw [Stretch.trace, ← List.append_assoc]
  exact congrArg (· ++ _) added

/-- A group that has been run and told leaves the invariant to the next. -/
theorem GroupRun.rests {stage : Stage} {st st' : RunState World} {result : Envelope}
    (run : s.GroupRun stage st result st') (rests : s.Rests st) :
    s.Rests (s.afterGroup stage result st') :=
  ((rests stage).moves run.moves).rests run.outcome _

/-- The groups of a pipeline from a position on are run, each in a stretch of its own. -/
inductive TellsGroups (s : Session World) (pipeline : Nat) : (position : Nat) →
    (previous : Option Envelope) → List Group → RunState World → Envelope → RunState World →
    List Stretch → Prop
  | empty {position : Nat} {st : RunState World} :
      TellsGroups s pipeline position none [] st (.failed "pipeline has no groups") st []
  | done {position : Nat} {result : Envelope} {st : RunState World} :
      TellsGroups s pipeline position (some result) [] st result st []
  | abort {position : Nat} {previous : Option Envelope} {group : Group} {rest : List Group}
      {st st' : RunState World} {result : Envelope} {events : Trace}
      (run : s.GroupRun ⟨pipeline, position, previous.map Envelope.payload, group⟩ st result st')
      (added : st'.trace = st.trace ++ events)
      (aborts : (!result.success && s.engine.settings.failure = .abort) = true) :
      TellsGroups s pipeline position previous (group :: rest) st result
        (s.afterGroup ⟨pipeline, position, previous.map Envelope.payload, group⟩ result st')
        [s.stretch ⟨pipeline, position, previous.map Envelope.payload, group⟩ events result st']
  | next {position : Nat} {previous : Option Envelope} {group : Group} {rest : List Group}
      {st st' last : RunState World} {result final : Envelope} {events : Trace}
      {stretches : List Stretch}
      (run : s.GroupRun ⟨pipeline, position, previous.map Envelope.payload, group⟩ st result st')
      (added : st'.trace = st.trace ++ events)
      (goes : ¬(!result.success && s.engine.settings.failure = .abort) = true)
      (others : TellsGroups s pipeline (position + 1) (some result) rest
        (s.afterGroup ⟨pipeline, position, previous.map Envelope.payload, group⟩ result st')
        final last stretches) :
      TellsGroups s pipeline position previous (group :: rest) st final last
        (s.stretch ⟨pipeline, position, previous.map Envelope.payload, group⟩ events result st' ::
          stretches)

/-- Pipelines are run, of which the first has the given position. -/
inductive TellsPipelines (s : Session World) : (position : Nat) → List Pipeline →
    RunState World → List Envelope → RunState World → List (List Stretch) → Prop
  | done {position : Nat} {st : RunState World} : TellsPipelines s position [] st [] st []
  | next {position : Nat} {pipeline : Pipeline} {rest : List Pipeline}
      {st st' last : RunState World} {result : Envelope} {results : List Envelope}
      {stretches : List Stretch} {parts : List (List Stretch)}
      (first : s.TellsGroups position 0 none pipeline.groups st result st' stretches)
      (others : TellsPipelines s (position + 1) rest st' results last parts) :
      TellsPipelines s position (pipeline :: rest) st (result :: results) last
        (stretches :: parts)

/-- Runs that are told are runs. -/
theorem TellsGroups.runs {pipeline position : Nat} {previous : Option Envelope}
    {groups : List Group} {st st' : RunState World} {result : Envelope} {stretches : List Stretch}
    (h : s.TellsGroups pipeline position previous groups st result st' stretches) :
    s.RunsGroups pipeline position previous groups st result st' := by
  induction h with
  | empty => exact .empty
  | done => exact .done
  | abort run added aborts => exact .abort _ run.moves run.outcome aborts
  | next run added goes others ih => exact .next _ run.moves run.outcome goes ih

theorem TellsPipelines.runs {position : Nat} {pipelines : List Pipeline} {st st' : RunState World}
    {results : List Envelope} {parts : List (List Stretch)}
    (h : s.TellsPipelines position pipelines st results st' parts) :
    s.RunsPipelines position pipelines st results st' := by
  induction h with
  | done => exact .done
  | next first others ih => exact .next first.runs ih

/-! ### The engine -/

theorem runGroups_tells (pipeline position : Nat) (previous : Option Envelope)
    (groups : List Group) (st : RunState World) (rests : s.Rests st) :
    ∃ stretches, s.TellsGroups pipeline position previous groups st
      ((s.runGroups pipeline position previous groups).run st).1
      ((s.runGroups pipeline position previous groups).run st).2 stretches := by
  induction groups generalizing position previous st with
  | nil =>
    cases previous with
    | none => exact ⟨[], .empty⟩
    | some result => exact ⟨[], .done⟩
  | cons group rest ih =>
    have ends := runGroup_spec (rests ⟨pipeline, position, previous.map Envelope.payload, group⟩)
    have grows := s.runGroup_grows pipeline position (previous.map Envelope.payload) group st
    rw [runGroups, run_bind]
    dsimp only at ends
    generalize (s.runGroup pipeline position (previous.map Envelope.payload) group).run st = p
      at ends grows ⊢
    obtain ⟨result, st'⟩ := p
    have run : s.GroupRun ⟨pipeline, position, previous.map Envelope.payload, group⟩ st result st' :=
      ⟨ends.moves, grows, ends.outcome⟩
    obtain ⟨events, added⟩ := run.moves.trace_prefix
    dsimp only
    rw [run_bind]
    by_cases aborts : (!result.success && s.engine.settings.failure = .abort) = true
    · rw [if_pos aborts]
      exact ⟨_, .abort run added.symm aborts⟩
    · rw [if_neg aborts]
      obtain ⟨stretches, others⟩ := ih (position + 1) (some result) _ (run.rests rests)
      exact ⟨_, .next run added.symm aborts others⟩

theorem runPipelines_tells (position : Nat) (pipelines : List Pipeline) (st : RunState World)
    (rests : s.Rests st) :
    ∃ parts, s.TellsPipelines position pipelines st ((s.runPipelines position pipelines).run st).1
      ((s.runPipelines position pipelines).run st).2 parts := by
  induction pipelines generalizing position st with
  | nil => exact ⟨[], .done⟩
  | cons pipeline rest ih =>
    obtain ⟨stretches, first⟩ := s.runGroups_tells position 0 none pipeline.groups st rests
    rw [runPipelines, run_bind]
    generalize (s.runGroups position 0 none pipeline.groups).run st = p at first ⊢
    obtain ⟨result, st'⟩ := p
    obtain ⟨parts, others⟩ := ih (position + 1) st' (first.runs.rests rests)
    rw [run_bind]
    generalize (s.runPipelines (position + 1) rest).run st' = q at others ⊢
    exact ⟨_, .next first others⟩

end Session

/-- **The engine makes one of the runs that are told.** -/
theorem Engine.run_tells {World : Type} (e : Engine World) (p : Program) (context : Context)
    (time : String) (world : World) : ∃ st parts,
      Session.TellsPipelines ⟨e, p.bindings, context, time⟩ 0 p.pipelines (initial world)
        (e.run p context time world).1.results st parts ∧
      st.trace = (e.run p context time world).1.trace := by
  obtain ⟨parts, tells⟩ := Session.runPipelines_tells (s := ⟨e, p.bindings, context, time⟩) 0
    p.pipelines (initial world) fun stage => .initial _ stage world
  exact ⟨_, parts, tells, rfl⟩

end CapabilityPipeline
