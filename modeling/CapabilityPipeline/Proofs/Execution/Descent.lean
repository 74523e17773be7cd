import CapabilityPipeline.Proofs.Execution.Twins
import CapabilityPipeline.Proofs.Names.Lookup
import Mathlib.Data.String.Basic

/-!
# The evaluation of bindings goes down

A right-hand side asks only for bindings that stand before it. So no binding is asked for, directly
or through others, by its own evaluation, and evaluations end: as long as one goes on something can
happen, and only so much can. A name that a step does not see is not asked for. The step ends without
a call, and its error names the first of its variables that cannot be had.

Results:

* `Program.Unseen`, `Program.Has`, `Program.Stops`: names that a step cannot have, and how it ends.
* `Program.Descends`: what a run tells of the evaluation of bindings.
* `Session.ComesToEnd`: only so much can happen, and something can until all has ended.
* `Engine.run_descends`: evaluation goes down and comes to its end, for every program.
-/

namespace CapabilityPipeline

open Json (Value)

/-! ## Names that a step cannot have -/

/-- The error of an envelope names a variable. -/
def Envelope.Names (e : Envelope) (name : String) : Prop :=
  ∃ text, e.error = some text ∧ s!"${name}".toList <:+: text.toList

namespace Program

variable (p : Program) (trace : Trace)

section Step

variable (site : Occurrence)

/-- The step at an occurrence does not see a name: no binding has it, or the binding that it stands
for is the one that the step belongs to or a later one. -/
def Unseen (name : String) : Prop :=
  ∀ index b, lastBinding? name p.bindings = some (index, b) → ¬index < p.scope site

/-- The step at an occurrence sees a binding of a name, which has succeeded. -/
def Has (name : String) : Prop :=
  ∃ index b ending, lastBinding? name p.bindings = some (index, b) ∧ index < p.scope site ∧
    .ended (.binding index) ending ∈ trace ∧ ending.envelope.success = true

/-- The step at an occurrence sees a binding of a name, which has failed with a message. -/
def HasFailed (name message : String) : Prop :=
  ∃ index b ending, lastBinding? name p.bindings = some (index, b) ∧ index < p.scope site ∧
    .ended (.binding index) ending ∈ trace ∧ ending.envelope.success = false ∧
    message = ending.envelope.errorMessage

/-- A step has failed without a call for want of a variable, which its error names. -/
structure Stops (name : String) (ending : Ending) : Prop where
  ended : .ended site ending ∈ trace
  uncalled : ∀ call, .called site call ∉ trace
  cause : ending = .unassigned name ∧ p.Unseen site name ∨
    ∃ message, ending = .bindingFailed name message ∧ p.HasFailed trace site name message
  fails : ending.envelope.success = false
  names : ending.envelope.Names name

end Step

/-- What a run tells of the evaluation of bindings. -/
structure Descends : Prop where
  /-- A right-hand side asks only for bindings before it. -/
  less : ∀ user index, .forced (.binding user) index ∈ trace → index < user
  /-- No binding is asked for by its own evaluation. -/
  noReentry : ∀ index,
    ¬Relation.TransGen (fun user index => .forced (.binding user) index ∈ trace) index index
  /-- A binding that is asked for is evaluated to its end. -/
  evaluated : ∀ site index, .forced site index ∈ trace →
    ∃ ending, .ended (.binding index) ending ∈ trace
  /-- A step that mentions a name that it does not see stops at the first of its variables that
  cannot be had: at this name or, if there is one, at one before it. -/
  stops : ∀ site step name, p.stepAt? site = some step → name ∈ step.mentions.keys →
    p.Unseen site name → (∃ event ∈ trace, event.step? = some site) →
    ∃ first ∈ step.mentions.keys, ∃ ending, p.Stops trace site first ending ∧
      (first = name ∨ first < name) ∧
      ∀ other ∈ step.mentions.keys, other < first → p.Has trace site other

end Program

theorem names_unassigned (name : String) : (Ending.unassigned name).envelope.Names name := by
  refine ⟨_, rfl, "variable '".toList, "' is not assigned before use".toList, ?_⟩
  simp [toString]

theorem names_bindingFailed (name message : String) :
    (Ending.bindingFailed name message).envelope.Names name := by
  refine ⟨_, rfl, "variable '".toList, ("' failed: " ++ message).toList, ?_⟩
  simp [toString]

/-! ## What comes to its end -/

namespace Session

variable {World : Type}

/-- A group that is being run comes to its end, in whatever order its moves are made. -/
structure ComesToEnd (s : Session World) (stage : Stage) (start st : RunState World) : Prop where
  /-- Only so much can happen. -/
  bounded : st.trace.keys.length ≤ start.trace.keys.length + (s.grid stage).length
  /-- As long as an evaluation that has begun has not ended, something can happen. -/
  goesOn : ∀ site task, s.task? stage st.trace site = some task → st.trace.ending? site = none →
    ∃ st', s.Move stage st st' ∧ st.trace.keys.length < st'.trace.keys.length

variable {s : Session World} {stage : Stage} {p : Program}

/-! ## No evaluation gets stuck -/

section Stuck

variable {st : RunState World}
  (stuck : ∀ st', s.Move stage st st' → ¬st.trace.keys.length < st'.trace.keys.length)

include stuck

/-- Where nothing more can happen, no move adds an event but entries of the log. -/
theorem no_move {st' : RunState World} {event : Event} (move : s.Move stage st st')
    (same : st'.trace = st.trace ++ [event]) : event.key? = none := by
  cases key : event.key? with
  | none => rfl
  | some k =>
    refine absurd ?_ (stuck st' move)
    rw [same, Trace.keys, Trace.keys, List.filterMap_append, List.filterMap_cons_some key,
      List.length_append]
    exact Nat.lt_add_of_pos_right (Nat.succ_pos _)

/-- **Where nothing more can happen, whoever has not ended waits.** -/
theorem waits_of_stuck {site : Occurrence} {task : Task}
    (has : s.task? stage st.trace site = some task) (unended : st.trace.ending? site = none) :
    Waits st.trace site := by
  -- a binding that is waited for has a lower limit
  induction limit : task.limit using Nat.strongRecOn generalizing site task with
  | ind limit ih =>
    cases called : st.trace.call? site with
    | some call =>
      refine .result called ?_
      cases answered : st.trace.answer? site with
      | none => rfl
      | some result => cases no_move stuck (.finish has called answered unended) rfl
    | none =>
      have ready : s.Ready stage st.trace site task := ⟨has, called, unended⟩
      cases asking : s.asking st.trace task with
      | blocked ending => cases no_move stuck (.block ready asking) rfl
      | complete found =>
        cases route : s.route (s.resolved task found) with
        | error error => cases no_move stuck (.refuse ready asking route) rfl
        | ok destination => cases no_move stuck (.call ready asking route) rfl
      | waiting index =>
        obtain ⟨before, name, rest, found, mentions, complete, stops⟩ :=
          ask_stops asking fun _ same => by cases same
        cases stops with
        | @waiting _ b same visible unknown =>
          by_cases forced : .forced site index ∈ st.trace
          · by_cases keeper : st.trace.keeper? index = some site
            · have begun : s.task? stage st.trace (.binding index) = some ⟨b.step, none, index⟩ := by
                rw [task?, keeper, (lastBinding?_mem same).1]
                rfl
              exact .binding forced unknown
                (ih index (limit ▸ visible) begun (Option.map_eq_none_iff.mp unknown) rfl)
            · exact .other forced unknown keeper
          · have asks : s.Asks st.trace task index :=
              ⟨before, name, rest, found, b, mentions, complete, same, visible⟩
            cases no_move stuck (.force ready asks forced) rfl

end Stuck

/-- **Something can happen until the group has its envelope.** -/
theorem Sound.goesOn {st : RunState World} (sound : s.Sound stage st)
    (unfinished : s.outcome? st.trace stage.pipeline stage.group [] stage.body = none) :
    ∃ st', s.Move stage st st' ∧ st.trace.keys.length < st'.trace.keys.length := by
  by_contra none
  have stuck (st' : RunState World) (move : s.Move stage st st') :
      ¬st.trace.keys.length < st'.trace.keys.length :=
    fun more => none ⟨st', move, more⟩
  have waits : s.AllWait stage st.trace [] stage.body := by
    intro below step reached unended
    rw [List.nil_append] at unended ⊢
    have has : s.task? stage st.trace (.leaf stage.pipeline stage.group below) =
        some ⟨step, stage.previous, s.bindings.length⟩ := by
      rw [task?, if_pos ⟨rfl, rfl⟩, reached]
      rfl
    exact waits_of_stuck stuck has unended
  obtain ⟨d, hd⟩ := exists_underway sound waits unfinished
  obtain ⟨before, after, underway⟩ := List.append_of_mem hd
  obtain ⟨world, pending, trace⟩ := st
  dsimp only at underway
  subst underway
  cases no_move stuck .arrive rfl

/-- **A group that is being run comes to its end**, in whatever order its moves are made. -/
theorem Sound.comesToEnd {start st : RunState World} (sound : s.Sound stage start)
    (moves : s.Moves stage start st) : s.ComesToEnd stage start st where
  bounded := sound.keys_length_le moves
  goesOn site task has unended := by
    have later := sound.moves moves
    cases finished : s.outcome? st.trace stage.pipeline stage.group [] stage.body with
    | none => exact later.goesOn finished
    | some result =>
      obtain ⟨ending, ended⟩ := later.task_ended finished has
      rw [unended] at ended
      cases ended

end Session

/-! ## Steps that stop -/

namespace Program

variable {p : Program} {trace : Trace} {site : Occurrence} {name : String}

/-- A step that has come past a name has it. -/
theorem has_of_complete {names : List String} {start found : NameMap Value}
    (h : ask p.bindings trace.value? (p.scope site) names start = .complete found)
    (mem : name ∈ names) : p.Has trace site name := by
  obtain ⟨index, b, result, same, visible, known, success⟩ := ask_complete h name mem
  obtain ⟨ending, ended, rfl⟩ := Option.map_eq_some_iff.mp known
  exact ⟨index, b, ending, same, visible, Trace.mem_of_ending? ended, success⟩

theorem Unseen.not_has (h : p.Unseen site name) : ¬p.Has trace site name :=
  fun ⟨index, b, _, same, visible, _⟩ => h index b same visible

end Program

namespace Session

variable {World : Type} {s : Session World} {p : Program} {trace : Trace} {site : Occurrence}

/-- **A step that mentions a name that it does not see stops**, once it has ended, at the first of its
variables that cannot be had. -/
theorem Explained.stops (h : s.Explained p trace) (same : s.bindings = p.bindings) {step : Step}
    (there : p.stepAt? site = some step) {name : String} (mentioned : name ∈ step.mentions.keys)
    (unseen : p.Unseen site name) {ending : Ending} (ended : .ended site ending ∈ trace) :
    ∃ first ∈ step.mentions.keys, p.Stops trace site first ending ∧ (first = name ∨ first < name) ∧
      ∀ other ∈ step.mentions.keys, other < first → p.Has trace site other := by
  have only {task : Task} (has : p.task? site = some task) : task = ⟨step, none, p.scope site⟩ := by
    rw [Program.task?, there] at has
    exact (Option.some.inj has).symm
  have incomplete {task : Task} (has : p.task? site = some task) (found : NameMap Value) :
      s.asking trace task ≠ .complete found := by
    intro complete
    rw [only has, asking, same] at complete
    exact unseen.not_has (Program.has_of_complete complete mentioned)
  cases h _ ended with
  | refused has complete => exact absurd complete (incomplete has _)
  | finished has complete => exact absurd complete (incomplete has _)
  | blocked has blocked =>
    rw [only has, asking, same] at blocked
    obtain ⟨before, first, rest, found, split, complete, stops⟩ :=
      ask_stops blocked fun _ same => by cases same
    have sorted := step.mentions.keys_pairwise
    dsimp only at split
    rw [split] at sorted mentioned ⊢
    obtain ⟨-, behind, -⟩ := List.pairwise_append.mp sorted
    have behind := (List.pairwise_cons.mp behind).1
    refine ⟨first, List.mem_append_right _ List.mem_cons_self, ⟨ended, ?_, ?_, ?_, ?_⟩, ?_, ?_⟩
    · intro call called
      cases h _ called with
      | called has complete => exact absurd complete (incomplete has _)
    · cases stops with
      | unseen hidden => exact .inl ⟨rfl, hidden⟩
      | failed refers visible known failure =>
        obtain ⟨ending', ended', rfl⟩ := Option.map_eq_some_iff.mp known
        exact .inr ⟨_, rfl, _, _, ending', refers, visible, Trace.mem_of_ending? ended', failure, rfl⟩
    · exact ask_blocked_fails blocked
    · cases stops with
      | unseen => exact names_unassigned first
      | failed => exact names_bindingFailed first _
    · rcases List.mem_append.mp mentioned with earlier | later
      · exact absurd (Program.has_of_complete complete earlier) unseen.not_has
      · exact (List.mem_cons.mp later).imp Eq.symm (behind name)
    · intro other mem less
      rcases List.mem_append.mp mem with earlier | later
      · exact Program.has_of_complete complete earlier
      · rcases List.mem_cons.mp later with rfl | later
        · exact absurd less (lt_irrefl _)
        · exact absurd less (lt_asymm (behind other later))

end Session

/-! ## Every run goes down -/

namespace Engine

variable {World : Type} {e : Engine World} {p : Program} {context : Context} {time : String}
  {world : World}

/-- **In every run the evaluation of bindings goes down**, in whatever order its moves are made. -/
theorem MayRun.descends {results : List Envelope} {st : RunState World}
    (run : e.MayRun p context time world results st) :
    p.Descends st.trace := by
  have less (user index : Nat) (forced : .forced (.binding user) index ∈ st.trace) :
      index < user := by
    cases run.explained _ forced with
    | forced has asks =>
      have visible := asks.visible
      rw [Program.limit_of_task? has] at visible
      exact visible
  refine ⟨less, fun index again => ?_, fun site index forced => ?_,
    fun site step name there mentioned unseen begun => ?_⟩
  · have down {a b : Nat}
        (h : Relation.TransGen (fun user index => .forced (.binding user) index ∈ st.trace) a b) :
        b < a := by
      induction h with
      | single forced => exact less _ _ forced
      | tail _ forced ih => exact (less _ _ forced).trans ih
    exact Nat.lt_irrefl _ (down again)
  · have rests := Session.RunsPipelines.rests run fun stage => .initial _ stage world
    obtain ⟨ending, ended⟩ := rests.evaluated forced
    exact ⟨ending, Trace.mem_of_ending? ended⟩
  · obtain ⟨event, mem, about⟩ := begun
    obtain ⟨ending, ended⟩ := run.executed event mem site about
    obtain ⟨first, firstMentioned, stops⟩ :=
      run.explained.stops rfl there mentioned unseen ended
    exact ⟨first, firstMentioned, ending, stops⟩

/-- **The evaluation of bindings goes down and comes to its end**, for every program: in the run of
the engine, in runs whose moves are made in another order, and at every moment while a group is
run. -/
theorem run_descends (e : Engine World) (p : Program) (context : Context) (time : String)
    (world : World) :
    p.Descends (e.run p context time world).1.trace ∧
      (∀ results st, e.MayRun p context time world results st → p.Descends st.trace) ∧
      ∀ stage start st, Session.Rests ⟨e, p.bindings, context, time⟩ start →
        Session.Moves ⟨e, p.bindings, context, time⟩ stage start st →
        Session.ComesToEnd ⟨e, p.bindings, context, time⟩ stage start st := by
  obtain ⟨st, run, trace, -⟩ := run_mayRun e p context time world
  refine ⟨?_, fun results st run => run.descends, fun stage start st rests moves => ?_⟩
  · rw [← trace]
    exact run.descends
  · exact (rests stage).comesToEnd moves

end Engine

/-- Steps side by side, of which one mentions a name that nothing binds. -/
def Group.tangled : Group :=
  .parallel [.single ((Step.ofRoute "source" "echo").withTarget "$x"),
    .single ((Step.ofRoute "source" "echo").withTarget "$z"),
    .single ((Step.ofRoute "source" "echo").withTarget "$d $who")]

/-- Bindings that mention themselves and each other, and two of one name. -/
def Program.tangled : Program where
  bindings := [⟨"x", (Step.ofRoute "source" "echo").withTarget "$x"⟩,
    ⟨"y", (Step.ofRoute "source" "echo").withTarget "$z"⟩,
    ⟨"z", (Step.ofRoute "source" "echo").withTarget "$y"⟩,
    ⟨"d", Step.ofRoute "source" "echo"⟩,
    ⟨"d", (Step.ofRoute "source" "echo").withTarget "$d"⟩]
  pipelines := [⟨[.tangled]⟩]

namespace Engine

/-- Every right-hand side ends, though all are tangled, and no driver is called. -/
theorem run_descends_tangled :
    let s : Session Unit := ⟨.echoing, Program.tangled.bindings, .ofRun "r", ""⟩
    let stage : Stage := ⟨0, 0, none, .tangled⟩
    let ran := (echoing.run .tangled (.ofRun "r") "" ()).1
    (ran.trace.callers = [] ∧ ran.trace.ending? (.binding 2) = some (.bindingFailed "y"
        "variable '$z' is not assigned before use")) ∧
      (∃ results st, echoing.MayRun .tangled (.ofRun "r") "" () results st ∧
        Program.tangled.Descends st.trace) ∧
      s.Rests (initial ()) ∧ s.ComesToEnd stage (initial ()) (initial ()) := by
  intro s stage ran
  obtain ⟨-, runs, groups⟩ := run_descends echoing .tangled (.ofRun "r") "" ()
  obtain ⟨st, run, -, -⟩ := run_mayRun echoing .tangled (.ofRun "r") "" ()
  have rests : s.Rests (initial ()) := fun stage => .initial s stage ()
  exact ⟨by decide +kernel, ⟨_, st, run, runs _ st run⟩, rests, groups stage _ _ rests .refl⟩

end Engine

/-! ## What does happen -/

/-- The error of every step that has ended names each variable that the step mentions and does not
see. -/
def Program.NamesEach (p : Program) (trace : Trace) : Prop :=
  ∀ site step name ending, p.stepAt? site = some step → name ∈ step.mentions.keys →
    p.Unseen site name → .ended site ending ∈ trace → ending.envelope.Names name

/-- A binding is asked for while it is being evaluated. -/
def Trace.ForcesUnended (trace : Trace) : Prop :=
  ∃ (before after : Trace) (site : Occurrence) (index : Nat),
    trace = before ++ .forced site index :: after ∧
      (before.keeper? index).isSome ∧ before.ending? (.binding index) = none

/-- A step that mentions a binding that fails and a name that nothing binds, and two steps side by
side that mention one binding. -/
def Program.halfKnown : Program where
  bindings := [⟨"a", Step.ofRoute "source" "lose"⟩, ⟨"c", Step.ofRoute "source" "echo"⟩]
  pipelines := [⟨[.single ((Step.ofRoute "source" "echo").withTarget "$a $zz")]⟩,
    ⟨[.parallel [.single ((Step.ofRoute "source" "echo").withTarget "$c"),
      .single ((Step.ofRoute "source" "echo").withTarget "$c")]]⟩]

/-- A step stops at the first of its variables that cannot be had, so that its error does not name
all that it does not see. And a binding that is being evaluated may be asked for by another step,
which waits for it. -/
theorem Engine.run_namesFirst :
    let ran := (echoing.run .halfKnown (.ofRun "r") "" ()).1
    ran.results.head? = some (.failed "variable '$a' failed: unknown action 'lose' on node 'source'") ∧
      ¬Program.halfKnown.NamesEach ran.trace ∧ ran.trace.ForcesUnended := by
  intro ran
  refine ⟨by decide +kernel, fun names => ?_, ?_⟩
  · have ended : .ended (.leaf 0 0 [])
        (.bindingFailed "a" "unknown action 'lose' on node 'source'") ∈ ran.trace := by
      decide +kernel
    have unseen : Program.halfKnown.Unseen (.leaf 0 0 []) "zz" := by
      intro index b found
      have none : lastBinding? "zz" Program.halfKnown.bindings = none := by decide +kernel
      rw [none] at found
      cases found
    obtain ⟨text, same, inside⟩ :=
      names (.leaf 0 0 []) _ "zz" _ rfl (by decide +kernel) unseen ended
    cases same
    revert inside
    decide +kernel
  · refine ⟨ran.trace.take 7, ran.trace.drop 8, .leaf 1 0 [1], 1, ?_, ?_, ?_⟩
    · decide +kernel
    · decide +kernel
    · decide +kernel

end CapabilityPipeline
