import CapabilityPipeline.Proofs.Execution.Eager
import CapabilityPipeline.Proofs.Execution.Runs
import CapabilityPipeline.Proofs.Program.WellFormed

/-!
# Laziness cannot be observed

A run evaluates a binding when it is first asked for, and whoever asks later is given the same
result. Where drivers answer by a function of the request, that result is the one of eager
evaluation, whoever asked first and whenever it was: so are then the results of all steps, of the
groups and of the program.

Results:

* `Session.lookUp_of_ask`: asking for bindings that have results is looking them up.
* `Session.Agrees`: all results so far are those of eager evaluation.
* `Session.Agrees.move`: every move preserves this.
* `Engine.run_results_eager`: the results of a program that was read are those of eager
  evaluation.
-/

namespace CapabilityPipeline

open Json (Value)

/-! ## Names of bindings -/

theorem lastBinding?_eq_none {name : String} {bindings : List Binding}
    (h : lastBinding? name bindings = none) : name ∉ bindings.map Binding.name := by
  rw [lastBinding?, Option.map_eq_none_iff, List.find?_eq_none] at h
  intro hmem
  obtain ⟨b, hb, rfl⟩ := List.mem_map.mp hmem
  obtain ⟨index, found⟩ := List.mem_iff_getElem?.mp hb
  have there : (b, index) ∈ bindings.zipIdx := List.mem_zipIdx_iff_getElem?.mpr found
  exact h (b, index) (List.mem_reverse.mpr there) (decide_eq_true rfl)

/-- Where names are distinct, a name that is bound from an index on is not bound before it. -/
theorem not_mem_take_of_lastBinding? {name : String} {bindings : List Binding} {index : Nat}
    {b : Binding} (distinct : (bindings.map Binding.name).Nodup)
    (h : lastBinding? name bindings = some (index, b)) {limit : Nat} (later : limit ≤ index) :
    name ∉ (bindings.take limit).map Binding.name := by
  intro hmem
  obtain ⟨b', hb', same⟩ := List.mem_map.mp hmem
  obtain ⟨found, named⟩ := lastBinding?_mem h
  obtain ⟨index', found'⟩ := List.mem_iff_getElem?.mp hb'
  rw [List.getElem?_take] at found'
  obtain ⟨less, there⟩ := Option.ite_none_right_eq_some.mp found'
  have names : (bindings.map Binding.name)[index']? = (bindings.map Binding.name)[index]? := by
    rw [List.getElem?_map, List.getElem?_map, there, found, Option.map_some, Option.map_some, same,
      named]
  have within : index' < (bindings.map Binding.name).length := by
    rw [List.length_map]
    exact (List.getElem?_eq_some_iff.mp there).1
  have equal := (List.getElem?_inj within distinct).mp names
  omega

/-! ## Asking and looking up -/

/-- What a step that asks for bindings has found out, unless it waits. -/
def Asking.found? : Asking → Option (Except Envelope (NameMap Value))
  | waiting _ => none
  | blocked ending => some (.error ending.envelope)
  | complete found => some (.ok found)

/-- The result that an event brings for a step: that of a call, or that of the step itself. -/
def Event.result? : Event → Option (Occurrence × Envelope)
  | answered site result => some (site, result)
  | ended site ending => some (site, ending.envelope)
  | _ => none

namespace Session

variable {World : Type}

/-- The result of a task in eager evaluation. -/
def expected (s : Session World) (answers : Answers) (task : Task) : Envelope :=
  s.eagerStep answers (s.environment answers (s.bindings.take task.limit)) task.step task.previous

variable {s : Session World} {answers : Answers}

/-- Asking for bindings whose results are those of eager evaluation is looking them up. -/
theorem lookUp_of_ask (distinct : (s.bindings.map Binding.name).Nodup)
    {value? : Nat → Option Envelope}
    (right : ∀ index result, value? index = some result → ∀ b, s.bindings[index]? = some b →
      result = s.expected answers ⟨b.step, none, index⟩)
    {limit : Nat} {names : List String} {start : NameMap Value}
    {found : Except Envelope (NameMap Value)}
    (h : (ask s.bindings value? limit names start).found? = some found) :
    lookUp (s.environment answers (s.bindings.take limit)) names start = found := by
  induction names generalizing start with
  | nil => exact Option.some.inj h
  | cons name rest ih =>
    rw [lookUp]
    cases same : lastBinding? name s.bindings with
    | none =>
      rw [ask, same] at h
      have absent : name ∉ (s.bindings.take limit).map Binding.name := fun hmem =>
        lastBinding?_eq_none same (List.map_subset _ (List.take_subset limit _) hmem)
      rw [get?_environment_eq_none absent]
      exact Option.some.inj h
    | some entry =>
      obtain ⟨index, b⟩ := entry
      obtain ⟨there, rfl⟩ := lastBinding?_mem same
      by_cases visible : index < limit
      · rw [ask_cons_visible same visible] at h
        have within : (s.bindings.take limit)[index]? = some b := by
          rw [List.getElem?_take_of_lt visible]
          exact there
        have distinct' : ((s.bindings.take limit).map Binding.name).Nodup :=
          distinct.sublist ((List.take_sublist limit _).map _)
        rw [get?_environment distinct' within, List.take_take, Nat.min_eq_left (Nat.le_of_lt visible)]
        cases known : value? index with
        | none =>
          rw [known] at h
          cases h
        | some result =>
          rw [known] at h
          have value := right index result known b there
          rw [expected] at value
          dsimp only at h value ⊢
          rw [← value]
          split at h
          · next success =>
            rw [if_pos success]
            exact ih h
          · next failure =>
            rw [if_neg failure]
            exact Option.some.inj h
      · rw [ask_cons_hidden same visible] at h
        rw [get?_environment_eq_none
          (not_mem_take_of_lastBinding? distinct same (Nat.le_of_not_lt visible))]
        exact Option.some.inj h

/-- What a task comes to once its step has asked for everything. -/
theorem expected_of_blocked (distinct : (s.bindings.map Binding.name).Nodup)
    {trace : Trace} (right : ∀ index result, trace.value? index = some result →
      ∀ b, s.bindings[index]? = some b → result = s.expected answers ⟨b.step, none, index⟩)
    {task : Task} {ending : Ending} (h : s.asking trace task = .blocked ending) :
    ending.envelope = s.expected answers task := by
  have found := lookUp_of_ask distinct right (congrArg Asking.found? h)
  rw [expected, eagerStep, found]

theorem expected_of_complete (distinct : (s.bindings.map Binding.name).Nodup)
    {trace : Trace} (right : ∀ index result, trace.value? index = some result →
      ∀ b, s.bindings[index]? = some b → result = s.expected answers ⟨b.step, none, index⟩)
    {task : Task} {found : NameMap Value} (h : s.asking trace task = .complete found) :
    s.eagerDispatch answers (s.resolved task found) = s.expected answers task := by
  have found := lookUp_of_ask distinct right (congrArg Asking.found? h)
  rw [expected, eagerStep, found]
  rfl

/-! ## The invariant -/

/-- The steps of earlier groups. -/
def Past (stage : Stage) : Occurrence → Prop
  | .leaf pipeline group _ =>
    pipeline < stage.pipeline ∨ pipeline = stage.pipeline ∧ group < stage.group
  | _ => False

/-- A result is that of eager evaluation, unless the step belongs to an earlier group. -/
def Right (s : Session World) (answers : Answers) (stage : Stage) (trace : Trace)
    (site : Occurrence) (result : Envelope) : Prop :=
  (∃ task, s.task? stage trace site = some task ∧ result = s.expected answers task) ∨
    Past stage site

/-- All results so far are those of eager evaluation. -/
structure Agrees (s : Session World) (answers : Answers) (stage : Stage) (st : RunState World) :
    Prop where
  arrived : ∀ event ∈ st.trace, ∀ site result, event.result? = some (site, result) →
    s.Right answers stage st.trace site result
  underway : ∀ d ∈ st.underway, s.Right answers stage st.trace d.step d.result

variable {stage : Stage}

theorem Right.mono {trace later : Trace} {site : Occurrence} {result : Envelope}
    (h : s.Right answers stage trace site result) (grown : trace <+: later) :
    s.Right answers stage later site result :=
  h.imp_left fun ⟨task, ready, same⟩ => ⟨task, s.task?_mono grown stage ready, same⟩

/-- For a step of the group, or of a binding, the result is that of its task. -/
theorem Right.expected {trace : Trace} {site : Occurrence} {result : Envelope}
    (h : s.Right answers stage trace site result) {task : Task}
    (ready : s.task? stage trace site = some task) : result = s.expected answers task := by
  rcases h with ⟨task', ready', same⟩ | past
  · rw [same, Option.some.inj (ready'.symm.trans ready)]
  · cases site with
    | binding => exact past.elim
    | leaf =>
      obtain ⟨rfl, rfl, -⟩ := task?_leaf ready
      rcases past with less | ⟨-, less⟩
      · exact absurd less (Nat.lt_irrefl _)
      · exact absurd less (Nat.lt_irrefl _)
    | alone => exact past.elim

namespace Agrees

variable {st st' : RunState World}

theorem values (h : s.Agrees answers stage st) (index : Nat) (result : Envelope)
    (known : st.trace.value? index = some result) (b : Binding)
    (found : s.bindings[index]? = some b) :
    result = s.expected answers ⟨b.step, none, index⟩ := by
  obtain ⟨ending, ended, rfl⟩ := Option.map_eq_some_iff.mp known
  rcases h.arrived _ (Trace.mem_of_ending? ended) _ _ rfl with ⟨task, ready, same⟩ | past
  · obtain ⟨-, b', found', rfl⟩ := task?_binding ready
    obtain rfl := Option.some.inj (found.symm.trans found')
    exact same
  · exact past.elim

/-- One more event whose result, if it brings one, is right. -/
theorem concat (h : s.Agrees answers stage st) {event : Event} {underway : List Delivery}
    (new : ∀ site result, event.result? = some (site, result) →
      s.Right answers stage st.trace site result)
    (sent : ∀ d ∈ underway, s.Right answers stage st.trace d.step d.result) (world : World) :
    s.Agrees answers stage ⟨world, underway, st.trace ++ [event]⟩ where
  arrived := by
    intro event' hmem site result same
    rcases List.mem_append.mp hmem with old | added
    · exact (h.arrived event' old site result same).mono (List.prefix_append _ _)
    · rw [List.mem_singleton.mp added] at same
      exact (new site result same).mono (List.prefix_append _ _)
  underway := fun d hd => (sent d hd).mono (List.prefix_append _ _)

/-- An event that brings no result. -/
theorem concat_quiet (h : s.Agrees answers stage st) {event : Event}
    (quiet : event.result? = none) {underway : List Delivery}
    (sent : ∀ d ∈ underway, s.Right answers stage st.trace d.step d.result) (world : World) :
    s.Agrees answers stage ⟨world, underway, st.trace ++ [event]⟩ := by
  refine h.concat (fun site result same => ?_) sent world
  rw [quiet] at same
  cases same

/-- **Every move preserves the agreement with eager evaluation.** -/
theorem move (answersBy : s.engine.AnswersBy answers)
    (distinct : (s.bindings.map Binding.name).Nodup) (h : s.Agrees answers stage st)
    (move : s.Move stage st st') : s.Agrees answers stage st' := by
  cases move with
  | force => exact h.concat_quiet rfl h.underway st.world
  | block ready blocked =>
    refine h.concat (fun site result same => ?_) h.underway st.world
    cases same
    exact .inl ⟨_, ready.task, expected_of_blocked distinct h.values blocked⟩
  | refuse ready complete route =>
    refine h.concat (fun site result same => ?_) h.underway st.world
    cases same
    refine .inl ⟨_, ready.task, ?_⟩
    rw [← expected_of_complete distinct h.values complete, eagerDispatch, route]
    rfl
  | @call _ site task found driver key action ready complete route =>
    refine h.concat_quiet rfl (fun d hd => ?_) _
    rcases List.mem_append.mp hd with old | new
    · exact h.underway d old
    · rw [List.mem_singleton.mp new, Served.delivery_step, Served.delivery_result,
        answersBy key driver (get?_of_route route)]
      refine .inl ⟨_, ready.task, ?_⟩
      rw [← expected_of_complete distinct h.values complete, eagerDispatch, route]
  | finish task called answered unended =>
    refine h.concat (fun site result same => ?_) h.underway st.world
    cases same
    exact h.arrived _ (Trace.mem_of_answer? answered) _ _ rfl
  | log => exact h.concat_quiet rfl h.underway st.world
  | @arrive world before after delivery trace =>
    have sent (d : Delivery) (hd : d ∈ before ++ after) :
        s.Right answers stage trace d.step d.result := by
      refine h.underway d (List.mem_append.mpr ?_)
      exact (List.mem_append.mp hd).imp_right (List.mem_cons_of_mem _)
    refine h.concat (fun site result same => ?_) sent world
    cases same
    exact h.underway delivery (List.mem_append_right _ (List.mem_cons_self ..))
  | elapse delay =>
    refine ⟨h.arrived, fun d hd => ?_⟩
    obtain ⟨d', hd', rfl⟩ := List.mem_map.mp hd
    exact h.underway d' hd'

theorem moves (answersBy : s.engine.AnswersBy answers)
    (distinct : (s.bindings.map Binding.name).Nodup) (h : s.Agrees answers stage st)
    (moves : s.Moves stage st st') : s.Agrees answers stage st' := by
  induction moves with
  | refl => exact h
  | tail _ made ih => exact ih.move answersBy distinct made

end Agrees

/-! ## Envelopes of groups -/

section Groups

variable {trace : Trace} {pipeline group : Nat} {env : NameMap Envelope} {previous : Option Value}

variable (s answers trace pipeline group env previous) in
/-- The steps that are reached within a group have ended as in eager evaluation, if they have. -/
def StepsAgree (path : List Nat) (g : Group) : Prop :=
  ∀ below step ending, s.reached? trace pipeline group path below g = some step →
    trace.ending? (.leaf pipeline group (path ++ below)) = some ending →
    ending.envelope = s.eagerStep answers env step previous

theorem StepsAgree.parallel {path : List Nat} {branches : List Group}
    (h : s.StepsAgree answers trace pipeline group env previous path (.parallel branches))
    {index : Nat} {branch : Group} (found : branches[index]? = some branch) :
    s.StepsAgree answers trace pipeline group env previous (path ++ [index]) branch := by
  intro below step ending reached ended
  refine h (index :: below) step ending ?_ ?_
  · rw [reached?, found]
    exact reached
  · rw [List.append_assoc] at ended
    exact ended

theorem StepsAgree.fallback {path : List Nat} {branches : List Group}
    (h : s.StepsAgree answers trace pipeline group env previous path (.fallback branches))
    {index : Nat} {branch : Group} (found : branches[index]? = some branch)
    (failed : s.allFailed trace pipeline group path 0 (branches.take index) = true) :
    s.StepsAgree answers trace pipeline group env previous (path ++ [index]) branch := by
  intro below step ending reached ended
  refine h (index :: below) step ending ?_ ?_
  · rw [reached?, if_pos failed, found]
    exact reached
  · rw [List.append_assoc] at ended
    exact ended

mutual

/-- The envelope of a group is that of eager evaluation. -/
theorem outcome?_eager : ∀ (g : Group) (path : List Nat) {result : Envelope},
    s.StepsAgree answers trace pipeline group env previous path g →
    s.outcome? trace pipeline group path g = some result →
    result = s.eagerGroup answers env previous g
  | .single step, path, result, agree, h => by
    rw [outcome?] at h
    obtain ⟨ending, ended, rfl⟩ := Option.map_eq_some_iff.mp h
    rw [eagerGroup]
    exact agree [] step ending rfl (by rw [List.append_nil]; exact ended)
  | .parallel branches, path, result, agree, h => by
    rw [outcome?] at h
    obtain ⟨results, all, rfl⟩ := Option.map_eq_some_iff.mp h
    rw [eagerGroup]
    congr 1
    refine branchOutcomes?_eager branches path 0 (fun index branch found => ?_) all
    rw [Nat.zero_add]
    exact agree.parallel found
  | .fallback branches, path, result, agree, h => by
    rw [outcome?] at h
    rw [eagerGroup]
    exact fallbackOutcome?_eager branches [] [] path agree rfl h

theorem branchOutcomes?_eager : ∀ (rest : List Group) (path : List Nat) (position : Nat)
    {results : List Envelope},
    (∀ index branch, rest[index]? = some branch →
      s.StepsAgree answers trace pipeline group env previous (path ++ [position + index]) branch) →
    s.branchOutcomes? trace pipeline group path position rest = some results →
    results = s.eagerBranches answers env previous rest
  | [], path, position, results, agree, h => by
    rw [branchOutcomes?] at h
    rw [eagerBranches]
    exact (Option.some.inj h).symm
  | branch :: rest, path, position, results, agree, h => by
    rw [branchOutcomes?] at h
    split at h
    · next first others hfirst hothers =>
      rw [eagerBranches, ← Option.some.inj h, outcome?_eager branch _ (agree 0 branch rfl) hfirst]
      congr 1
      refine branchOutcomes?_eager rest path (position + 1) (fun index later found => ?_) hothers
      rw [Nat.add_assoc, Nat.add_comm 1]
      exact agree (index + 1) later found
    · cases h

theorem fallbackOutcome?_eager : ∀ (rest failed : List Group) (errors : List String)
    (path : List Nat) {result : Envelope},
    s.StepsAgree answers trace pipeline group env previous path (.fallback (failed ++ rest)) →
    s.allFailed trace pipeline group path 0 failed = true →
    s.fallbackOutcome? trace pipeline group path failed.length errors rest = some result →
    result = s.eagerFallback answers env previous errors rest
  | [], failed, errors, path, result, agree, hfailed, h => by
    rw [fallbackOutcome?] at h
    rw [eagerFallback]
    exact (Option.some.inj h).symm
  | branch :: rest, failed, errors, path, result, agree, hfailed, h => by
    rw [fallbackOutcome?] at h
    split at h
    · cases h
    · next first hfirst =>
      have turn : s.StepsAgree answers trace pipeline group env previous
          (path ++ [failed.length]) branch := by
        refine agree.fallback (by simp) ?_
        rw [List.take_left']
        · exact hfailed
        · rfl
      have same := outcome?_eager branch _ turn hfirst
      rw [eagerFallback, ← same]
      split at h
      · next success =>
        rw [if_pos success]
        exact (Option.some.inj h).symm
      · next failure =>
        rw [if_neg failure]
        have agree' : s.StepsAgree answers trace pipeline group env previous path
            (.fallback ((failed ++ [branch]) ++ rest)) := by
          rw [List.append_assoc]
          exact agree
        have failed' : s.allFailed trace pipeline group path 0 (failed ++ [branch]) = true :=
          allFailed_concat hfailed (by rw [Nat.zero_add]; exact hfirst) failure
        refine fallbackOutcome?_eager rest (failed ++ [branch]) _ path agree' failed' ?_
        rw [List.length_append, List.length_singleton]
        exact h

end

end Groups

/-! ## Runs -/

/-- All results so far are those of eager evaluation, and all steps of groups belong to groups
before a place. -/
def AgreesBefore (s : Session World) (answers : Answers) (pipeline group : Nat)
    (st : RunState World) : Prop :=
  ∀ previous body, s.Agrees answers ⟨pipeline, group, previous, body⟩ st

/-- The steps of a group belong to the past when a later group is run. -/
theorem Right.later {trace : Trace} {site : Occurrence} {result : Envelope}
    (h : s.Right answers stage trace site result) {next : Stage}
    (later : stage.pipeline < next.pipeline ∨
      stage.pipeline = next.pipeline ∧ stage.group < next.group) :
    s.Right answers next trace site result := by
  cases site with
  | binding => exact h.imp_right False.elim
  | leaf pipeline group path =>
    refine .inr ?_
    rcases h with ⟨task, ready, -⟩ | past
    · obtain ⟨rfl, rfl, -⟩ := task?_leaf ready
      exact later
    · show pipeline < next.pipeline ∨ pipeline = next.pipeline ∧ group < next.group
      rcases past with less | ⟨same, less⟩
      · omega
      · omega
  | alone =>
    rcases h with ⟨task, ready, -⟩ | past
    · cases ready
    · exact past.elim

theorem Agrees.later {st : RunState World} (h : s.Agrees answers stage st) {next : Stage}
    (later : stage.pipeline < next.pipeline ∨
      stage.pipeline = next.pipeline ∧ stage.group < next.group) : s.Agrees answers next st where
  arrived := fun event hmem site result same => (h.arrived event hmem site result same).later later
  underway := fun d hd => (h.underway d hd).later later

/-- The envelope of a group that has been run is that of eager evaluation. -/
theorem Agrees.outcome {st : RunState World} (h : s.Agrees answers stage st) {result : Envelope}
    (outcome : s.outcome? st.trace stage.pipeline stage.group [] stage.body = some result) :
    result = s.eagerGroup answers (s.environment answers s.bindings) stage.previous stage.body := by
  refine outcome?_eager stage.body [] (fun below step ending reached ended => ?_) outcome
  have ready : s.task? stage st.trace (.leaf stage.pipeline stage.group below) =
      some ⟨step, stage.previous, s.bindings.length⟩ := by
    rw [task?, if_pos ⟨rfl, rfl⟩, reached]
    rfl
  have right := h.arrived _ (Trace.mem_of_ending? ended) _ _ rfl
  have same := right.expected ready
  rw [Session.expected, List.take_length] at same
  exact same

theorem RunsGroups.eager (answersBy : s.engine.AnswersBy answers)
    (distinct : (s.bindings.map Binding.name).Nodup) {pipeline position : Nat}
    {previous : Option Envelope} {groups : List Group} {st st' : RunState World}
    {result : Envelope} (run : s.RunsGroups pipeline position previous groups st result st')
    (start : s.AgreesBefore answers pipeline position st) :
    result = s.eagerGroups answers (s.environment answers s.bindings) previous groups ∧
      s.AgreesBefore answers (pipeline + 1) 0 st' := by
  induction run with
  | empty =>
    exact ⟨rfl, fun _ _ => (start none (.parallel [])).later (.inl (Nat.lt_succ_self _))⟩
  | done =>
    exact ⟨rfl, fun _ _ => (start none (.parallel [])).later (.inl (Nat.lt_succ_self _))⟩
  | @abort position previous group rest st st' result entry moves outcome aborts =>
    have agrees := (start _ _).moves answersBy distinct moves
    have same := agrees.outcome outcome
    dsimp only at same
    refine ⟨?_, fun _ _ => ?_⟩
    · rw [eagerGroups, ← same, if_pos aborts]
    · exact (agrees.move answersBy distinct (.log entry)).later (.inl (Nat.lt_succ_self _))
  | @next position previous group rest st st' last result final entry moves outcome goes others ih =>
    have agrees := (start _ _).moves answersBy distinct moves
    have same := agrees.outcome outcome
    dsimp only at same
    have logged := agrees.move answersBy distinct (.log entry)
    obtain ⟨equal, after⟩ := ih fun _ _ => logged.later (.inr ⟨rfl, Nat.lt_succ_self _⟩)
    refine ⟨?_, after⟩
    rw [eagerGroups, ← same, if_neg goes]
    exact equal

theorem RunsPipelines.eager (answersBy : s.engine.AnswersBy answers)
    (distinct : (s.bindings.map Binding.name).Nodup) {position : Nat} {pipelines : List Pipeline}
    {st st' : RunState World} {results : List Envelope}
    (run : s.RunsPipelines position pipelines st results st')
    (start : s.AgreesBefore answers position 0 st) :
    results = pipelines.map fun pipeline =>
      s.eagerGroups answers (s.environment answers s.bindings) none pipeline.groups := by
  induction run with
  | done => rfl
  | next first others ih =>
    obtain ⟨same, after⟩ := first.eager answersBy distinct start
    rw [List.map_cons, ← same, ih after]

end Session

namespace Engine

variable {World : Type} {e : Engine World} {answers : Answers}

/-- The results of every run of a program with distinct names are those of eager evaluation. -/
theorem MayRun.results_eq (answersBy : e.AnswersBy answers) {p : Program}
    (distinct : p.names.Nodup) {context : Context} {time : String} {world : World}
    {results : List Envelope} {st : RunState World}
    (run : e.MayRun p context time world results st) :
    results = e.eagerResults answers p context time := by
  refine Session.RunsPipelines.eager (s := ⟨e, p.bindings, context, time⟩) answersBy distinct run
    fun previous body => ?_
  exact ⟨fun _ hmem => absurd hmem List.not_mem_nil, fun _ hd => absurd hd List.not_mem_nil⟩

/-- **Laziness cannot be observed.** If drivers answer by a function of the request, the results
of a program that was read are those of eager evaluation: as the engine runs it, and in whatever
order branches take turns. -/
theorem run_results_eager {code : String} {p : Program} (parsed : Program.parse code = .ok p)
    (answersBy : e.AnswersBy answers) (context : Context) (time : String) (world : World) :
    (e.run p context time world).1.results = e.eagerResults answers p context time ∧
      ∀ results st, e.MayRun p context time world results st →
        results = e.eagerResults answers p context time := by
  have distinct := (Program.wellFormed_of_parse parsed).distinct
  obtain ⟨st, run, -, -⟩ := run_mayRun e p context time world
  exact ⟨run.results_eq answersBy distinct, fun _ _ other => other.results_eq answersBy distinct⟩

/-- A binding that fails is no failure of the steps that do not need it. -/
theorem run_results_eager_diamond :
    ∃ code, Program.parse code = .ok .diamond ∧
      (echoing.run .diamond (.ofRun "r") "" ()).1.results =
        echoing.eagerResults echoing.stateless .diamond (.ofRun "r") "" ∧
      (echoing.eagerResults echoing.stateless .diamond (.ofRun "r") "").map Envelope.success =
        [true, false] := by
  have parsed : Program.parse ("$x = [source:echo]\n$y = [source:echo]($x)\n" ++
      "$z = [source:lose]($x)\n[source:echo](\"$x and $y\") & [source:echo]($y)\n" ++
      "[source:echo]($z) ?? [source:echo]($x) >> [source:echo]($z)") = .ok .diamond := by
    decide +kernel
  refine ⟨_, parsed, ?_, by decide +kernel⟩
  exact (run_results_eager parsed echoing.answersBy_stateless (.ofRun "r") "" ()).1

end Engine

end CapabilityPipeline
