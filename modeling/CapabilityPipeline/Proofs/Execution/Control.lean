import CapabilityPipeline.Proofs.Execution.Account
import CapabilityPipeline.Proofs.Execution.Twins

/-!
# Driver data cannot steer control flow

Two engines whose drivers do different things run the same program. If the calls that both make
agree on success, the runs take the same course: the same drivers are called for the same steps
under the same names, and whatever has a result in one run has one in the other, with the same
success. Data, summaries and error texts make no difference, whatever is written in them.

Results:

* `Trace.dispatches`: the calls of a run.
* `Session.TellsPipelines.agree`: the groups of two runs, and what they come to.
* `Session.SideBySide.hasEnded`: the steps that end in one run end in the other.
* `ProgramRun.SameCourse`, `Engine.run_sameCourse`: the runs take the same course.
-/

namespace CapabilityPipeline

open Json (Value)

variable {World₁ World₂ : Type}

/-! ## Calls -/

/-- The step for which a driver is called, the driver, and the name that it is called by. -/
def Event.dispatch? : Event → Option (Occurrence × DriverKey × String)
  | called site call => some (site, call.driver, call.action)
  | _ => none

namespace Trace

variable {trace later : Trace}

/-- The calls of a trace, in order. -/
def dispatches (trace : Trace) : List (Occurrence × DriverKey × String) :=
  trace.filterMap Event.dispatch?

theorem mem_dispatches {site : Occurrence} {key : DriverKey} {action : String} :
    (site, key, action) ∈ trace.dispatches ↔
      ∃ call, .called site call ∈ trace ∧ call.driver = key ∧ call.action = action := by
  rw [dispatches, List.mem_filterMap]
  constructor
  · rintro ⟨event, hmem, same⟩
    cases event with
    | called other call =>
      cases same
      exact ⟨call, hmem, rfl, rfl⟩
    | _ => cases same
  · rintro ⟨call, hmem, rfl, rfl⟩
    exact ⟨_, hmem, rfl⟩

/-- Where no step calls a driver twice, no call is made twice. -/
theorem dispatches_nodup (h : trace.callers.Nodup) : trace.dispatches.Nodup := by
  have sites : trace.dispatches.map Prod.fst = trace.callers := by
    rw [dispatches, callers, List.map_filterMap]
    refine List.filterMap_congr fun event _ => ?_
    cases event with
    | _ => rfl
  rw [← sites] at h
  exact h.of_map

/-- All calls of a trace succeed. -/
def callsSucceed (trace : Trace) : Bool :=
  trace.all fun
    | .answered _ result => result.success
    | _ => true

/-- Calls agree on success if all succeed. -/
theorem callsAgree_of_callsSucceed {trace₁ trace₂ : Trace} (h₁ : trace₁.callsSucceed = true)
    (h₂ : trace₂.callsSucceed = true) : trace₁.CallsAgree trace₂ := by
  intro site result₁ result₂ answered₁ answered₂
  have success₁ : result₁.success = true := List.all_eq_true.mp h₁ _ answered₁
  have success₂ : result₂.success = true := List.all_eq_true.mp h₂ _ answered₂
  rw [success₁, success₂]

theorem HasEnded.mono {site : Occurrence} (h : trace.HasEnded site) (grown : trace <+: later) :
    later.HasEnded site := by
  obtain ⟨ending, ended⟩ := h
  exact ⟨ending, grown.subset ended⟩

theorem StepsAgree.mono {trace₁ trace₂ later₁ later₂ : Trace} {pipeline group : Nat}
    (h : later₁.StepsAgree later₂ pipeline group) (grown₁ : trace₁ <+: later₁)
    (grown₂ : trace₂ <+: later₂) : trace₁.StepsAgree trace₂ pipeline group :=
  fun path ending₁ ending₂ ended₁ ended₂ =>
    h path ending₁ ending₂ (grown₁.subset ended₁) (grown₂.subset ended₂)

end Trace

/-! ## Groups -/

/-- Stretches tell of the same groups, with the same success, and the steps of groups that appear in
the first have ended in the trace of the second. -/
structure StretchesAgree (stretches₁ stretches₂ : List Stretch) (trace₂ : Trace) : Prop where
  outlines : stretches₁.map (fun stretch => stretch.entry.outline) =
    stretches₂.map fun stretch => stretch.entry.outline
  ends : ∀ stretch ∈ stretches₁, ∀ event ∈ stretch.events, ∀ pipeline group path,
    event.step? = some (.leaf pipeline group path) → trace₂.HasEnded (.leaf pipeline group path)

namespace StretchesAgree

variable {stretches₁ stretches₂ more₁ more₂ : List Stretch} {trace₂ later₂ : Trace}

theorem nil : StretchesAgree [] [] trace₂ :=
  ⟨rfl, fun _ none => by cases none⟩

theorem append (h : StretchesAgree stretches₁ stretches₂ trace₂)
    (others : StretchesAgree more₁ more₂ later₂) (grown : trace₂ <+: later₂) :
    StretchesAgree (stretches₁ ++ more₁) (stretches₂ ++ more₂) later₂ := by
  refine ⟨?_, fun stretch hmem event hevent pipeline group path step => ?_⟩
  · rw [List.map_append, List.map_append, h.outlines, others.outlines]
  · rcases List.mem_append.mp hmem with first | other
    · exact (h.ends stretch first event hevent pipeline group path step).mono grown
    · exact others.ends stretch other event hevent pipeline group path step

theorem cons {stretch₁ stretch₂ : Stretch} (h : StretchesAgree [stretch₁] [stretch₂] trace₂)
    (others : StretchesAgree more₁ more₂ later₂) (grown : trace₂ <+: later₂) :
    StretchesAgree (stretch₁ :: more₁) (stretch₂ :: more₂) later₂ :=
  h.append others grown

end StretchesAgree

namespace Session

theorem TellsGroups.trace_prefix {World : Type} {s : Session World} {pipeline position : Nat}
    {previous : Option Envelope} {groups : List Group} {st st' : RunState World} {result : Envelope}
    {stretches : List Stretch}
    (h : s.TellsGroups pipeline position previous groups st result st' stretches) :
    st.trace <+: st'.trace :=
  ⟨_, h.trace_eq.symm⟩

theorem TellsPipelines.trace_prefix {World : Type} {s : Session World} {position : Nat}
    {pipelines : List Pipeline} {st st' : RunState World} {results : List Envelope}
    {parts : List (List Stretch)}
    (h : s.TellsPipelines position pipelines st results st' parts) : st.trace <+: st'.trace :=
  ⟨_, h.trace_eq.symm⟩

variable {s₁ : Session World₁} {s₂ : Session World₂} {st₁ st₁' : RunState World₁}
  {st₂ st₂' : RunState World₂}

/-- Two runs of a group whose steps agree on success agree on success. -/
theorem GroupRun.success_eq (settings : s₁.engine.settings = s₂.engine.settings)
    {pipeline position : Nat} {previous₁ previous₂ : Option Value} {g : Group}
    {result₁ result₂ : Envelope}
    (run₁ : s₁.GroupRun ⟨pipeline, position, previous₁, g⟩ st₁ result₁ st₁')
    (run₂ : s₂.GroupRun ⟨pipeline, position, previous₂, g⟩ st₂ result₂ st₂')
    (agree : st₁'.trace.StepsAgree st₂'.trace pipeline position) :
    result₁.success = result₂.success :=
  outcome?_agrees settings agree g [] run₁.outcome run₂.outcome

/-- Two runs of a group whose steps agree on success are told alike. -/
theorem GroupRun.stretchesAgree (settings : s₁.engine.settings = s₂.engine.settings)
    {pipeline position : Nat} {previous₁ previous₂ : Option Value} {g : Group}
    {result₁ result₂ : Envelope}
    (run₁ : s₁.GroupRun ⟨pipeline, position, previous₁, g⟩ st₁ result₁ st₁')
    (run₂ : s₂.GroupRun ⟨pipeline, position, previous₂, g⟩ st₂ result₂ st₂')
    (agree : st₁'.trace.StepsAgree st₂'.trace pipeline position) (rests : s₁.Rests st₁)
    {events₁ : Trace} (added : st₁'.trace = st₁.trace ++ events₁) (events₂ : Trace) :
    StretchesAgree [s₁.stretch ⟨pipeline, position, previous₁, g⟩ events₁ result₁ st₁']
      [s₂.stretch ⟨pipeline, position, previous₂, g⟩ events₂ result₂ st₂']
      (s₂.afterGroup ⟨pipeline, position, previous₂, g⟩ result₂ st₂').trace := by
  refine ⟨?_, fun stretch hmem event hevent pipeline' group' path step => ?_⟩
  · have outline {World : Type} (s : Session World) (previous : Option Value) (events : Trace)
        (result : Envelope) (st : RunState World) :
        (s.stretch ⟨pipeline, position, previous, g⟩ events result st).entry.outline =
          ⟨some pipeline, some position, g.kind, g.render, result.success⟩ := rfl
    rw [List.map_singleton, List.map_singleton, outline, outline,
      run₁.success_eq settings run₂ agree]
  · cases List.mem_singleton.mp hmem
    obtain ⟨events', same, about⟩ := (rests _).moves_events run₁.moves
    cases List.append_cancel_left (added.symm.trans same)
    obtain ⟨task, ready, -⟩ := about event hevent _ step
    obtain ⟨rfl, rfl, step, reached, -⟩ := task?_leaf ready
    have reached := reached?_agrees settings agree run₁.outcome run₂.outcome reached
    obtain ⟨ending, ended⟩ := ended_of_outcome? run₂.outcome reached
    exact ⟨ending, List.mem_append_left _ (Trace.mem_of_ending? ended)⟩

/-- **The groups of a pipeline are run alike** by twins, if their steps agree on success. -/
theorem TellsGroups.agree (settings : s₁.engine.settings = s₂.engine.settings)
    {pipeline position : Nat} {previous₁ previous₂ : Option Envelope} {groups : List Group}
    {result₁ result₂ : Envelope} {stretches₁ stretches₂ : List Stretch}
    (h₁ : s₁.TellsGroups pipeline position previous₁ groups st₁ result₁ st₁' stretches₁)
    (h₂ : s₂.TellsGroups pipeline position previous₂ groups st₂ result₂ st₂' stretches₂)
    (previous : previous₁.map Envelope.success = previous₂.map Envelope.success)
    (rests : s₁.Rests st₁)
    (agree : ∀ pipeline group, st₁'.trace.StepsAgree st₂'.trace pipeline group) :
    result₁.success = result₂.success ∧ StretchesAgree stretches₁ stretches₂ st₂'.trace := by
  induction h₁ generalizing previous₂ st₂ stretches₂ with
  | empty =>
    cases h₂ with
    | empty => exact ⟨rfl, .nil⟩
    | done => cases previous
  | done =>
    cases h₂ with
    | empty => cases previous
    | done => exact ⟨Option.some.inj previous, .nil⟩
  | @abort position _ _ _ _ _ _ _ run₁ added₁ aborts₁ =>
    cases h₂ with
    | abort run₂ added₂ aborts₂ =>
      have agree := (agree pipeline position).mono (List.prefix_append _ _) (List.prefix_append _ _)
      exact ⟨run₁.success_eq settings run₂ agree,
        run₁.stretchesAgree settings run₂ agree rests added₁ _⟩
    | next run₂ added₂ goes₂ others₂ =>
      have agree := (agree pipeline position).mono (List.prefix_append _ _)
        ((List.prefix_append _ _).trans others₂.trace_prefix)
      rw [run₁.success_eq settings run₂ agree, settings] at aborts₁
      exact absurd aborts₁ goes₂
  | @next position _ _ _ _ _ _ _ _ _ _ run₁ added₁ goes₁ others₁ ih =>
    cases h₂ with
    | abort run₂ added₂ aborts₂ =>
      have agree := (agree pipeline position).mono
        ((List.prefix_append _ _).trans others₁.trace_prefix) (List.prefix_append _ _)
      rw [← run₁.success_eq settings run₂ agree, ← settings] at aborts₂
      exact absurd aborts₂ goes₁
    | next run₂ added₂ goes₂ others₂ =>
      have agree' := (agree pipeline position).mono
        ((List.prefix_append _ _).trans others₁.trace_prefix)
        ((List.prefix_append _ _).trans others₂.trace_prefix)
      have success := run₁.success_eq settings run₂ agree'
      obtain ⟨same, stretches⟩ := ih others₂ (congrArg some success) (run₁.rests rests) agree
      refine ⟨same, StretchesAgree.cons ?_ stretches others₂.trace_prefix⟩
      exact run₁.stretchesAgree settings run₂ agree' rests added₁ _

/-- **Pipelines are run alike** by twins, if their steps agree on success. -/
theorem TellsPipelines.agree (settings : s₁.engine.settings = s₂.engine.settings) {position : Nat}
    {pipelines : List Pipeline} {results₁ results₂ : List Envelope}
    {parts₁ parts₂ : List (List Stretch)}
    (h₁ : s₁.TellsPipelines position pipelines st₁ results₁ st₁' parts₁)
    (h₂ : s₂.TellsPipelines position pipelines st₂ results₂ st₂' parts₂) (rests : s₁.Rests st₁)
    (agree : ∀ pipeline group, st₁'.trace.StepsAgree st₂'.trace pipeline group) :
    results₁.map Envelope.success = results₂.map Envelope.success ∧
      StretchesAgree parts₁.flatten parts₂.flatten st₂'.trace := by
  induction h₁ generalizing st₂ results₂ parts₂ with
  | done =>
    cases h₂ with
    | done => exact ⟨rfl, .nil⟩
  | next first₁ others₁ ih =>
    cases h₂ with
    | next first₂ others₂ =>
      obtain ⟨success, stretches⟩ := first₁.agree settings first₂ rfl rests fun pipeline group =>
        (agree pipeline group).mono others₁.trace_prefix others₂.trace_prefix
      obtain ⟨same, more⟩ := ih others₂ (first₁.runs.rests rests) agree
      rw [List.map_cons, List.map_cons, success, same]
      exact ⟨rfl, stretches.append more others₂.trace_prefix⟩

/-! ## Whole runs -/

/-- What is known of a whole run that falls into stretches. -/
structure Whole {World : Type} (s : Session World) (p : Program) (st : RunState World)
    (parts : List (List Stretch)) : Prop where
  explained : s.Explained p st.trace
  executed : Executed st.trace
  between : s.Between st
  outlined : s.Outlined st.trace
  trace : st.trace = parts.flatten.flatMap Stretch.trace
  groups : (st.trace.filterMap Event.entry?).filter LogEntry.isGroup =
    parts.flatten.map Stretch.entry

theorem TellsPipelines.whole {World : Type} {e : Engine World} {p : Program} {context : Context}
    {time : String} {world : World} {results : List Envelope} {st : RunState World}
    {parts : List (List Stretch)}
    (tells : TellsPipelines ⟨e, p.bindings, context, time⟩ 0 p.pipelines (Engine.initial world)
      results st parts) : Whole ⟨e, p.bindings, context, time⟩ p st parts := by
  have run : e.MayRun p context time world results st := tells.runs
  obtain ⟨told, between⟩ := tells.told (.initial _ world)
  refine ⟨run.explained, run.executed, between, (keptByTelling_outlined _).pipelines tells rfl,
    tells.trace_eq, ?_⟩
  rw [tells.trace_eq]
  exact told.groups fun stretch hmem => tells.isGroup hmem

/-- In a whole run nothing happens twice. -/
theorem Whole.keys {World : Type} {s : Session World} {p : Program} {st : RunState World}
    {parts : List (List Stretch)} (h : Whole s p st parts) : st.trace.keys.Nodup :=
  (h.between.rests ⟨0, 0, none, .parallel []⟩).keys

/-- Entries of bindings are outlined alike by twins. -/
theorem Twins.bindingOutline_eq (h : s₁.Twins s₂) (index : Nat) (success : Bool) :
    s₁.bindingOutline index success = s₂.bindingOutline index success := by
  rw [bindingOutline, bindingOutline, h.bindings]

namespace SideBySide

variable {p : Program} {trace₁ trace₂ : Trace}

/-- **What ends in one run ends in the other**, if this is so of the steps of groups: bindings are
asked for by steps that come to the same. -/
theorem hasEnded (h : SideBySide s₁ s₂ p trace₁ trace₂) (executed : Executed trace₁)
    (asked : ∀ index ending, .ended (.binding index) ending ∈ trace₁ →
      ∃ site, .forced site index ∈ trace₁)
    (steps : ∀ event ∈ trace₁, ∀ pipeline group path,
      event.step? = some (.leaf pipeline group path) → trace₂.HasEnded (.leaf pipeline group path))
    {site : Occurrence} (ended : trace₁.HasEnded site) : trace₂.HasEnded site := by
  cases site with
  | leaf pipeline group path =>
    obtain ⟨ending, ended⟩ := ended
    exact steps _ ended pipeline group path rfl
  | alone =>
    obtain ⟨ending, ended⟩ := ended
    obtain ⟨task, has⟩ := h.explained₁.task ended
    cases has
  | binding index =>
    -- by induction on how many bindings stand behind: only these can have asked for this one
    induction remaining : p.bindings.length - index using Nat.strongRecOn generalizing index with
    | ind n ih =>
      obtain ⟨ending, ended⟩ := ended
      obtain ⟨site, forced⟩ := asked index ending ended
      refine h.evaluated forced ?_
      cases site with
      | leaf pipeline group path => exact steps _ forced pipeline group path rfl
      | alone =>
        cases h.explained₁ _ forced with
        | forced has asks => cases has
      | binding user =>
        cases h.explained₁ _ forced with
        | forced has asks =>
          have less := asks.visible
          rw [Program.limit_of_task? has] at less
          have within := Program.lt_length_of_task? has
          exact ih _ (by dsimp only [Program.scope] at less; omega) user
            (executed _ forced _ rfl) rfl

/-- **What ends in a whole run ends in the other**, if its groups are told alike. -/
theorem whole_hasEnded {parts₁ parts₂ : List (List Stretch)}
    (h : SideBySide s₁ s₂ p st₁.trace st₂.trace) (whole₁ : Whole s₁ p st₁ parts₁)
    (agree : StretchesAgree parts₁.flatten parts₂.flatten st₂.trace) (site : Occurrence) :
    st₁.trace.HasEnded site → st₂.trace.HasEnded site := by
  refine h.hasEnded whole₁.executed whole₁.between.asked fun event hmem pipeline group path step => ?_
  rw [whole₁.trace] at hmem
  obtain ⟨stretch, hstretch, hevent⟩ := List.mem_flatMap.mp hmem
  rcases List.mem_append.mp hevent with inside | logged
  · exact agree.ends stretch hstretch event inside pipeline group path step
  · rw [List.mem_singleton.mp logged] at step
    cases step

/-- A binding that is evaluated in both runs comes to the same. -/
theorem mem_evaluated (h : SideBySide s₁ s₂ p trace₁ trace₂)
    (ends : ∀ site, trace₁.HasEnded site → trace₂.HasEnded site) {x : Nat × Bool}
    (hx : x ∈ trace₁.evaluated) : x ∈ trace₂.evaluated := by
  obtain ⟨index, success⟩ := x
  obtain ⟨ending₁, ended₁, rfl⟩ := Trace.mem_evaluated.mp hx
  obtain ⟨ending₂, ended₂⟩ := ends _ ⟨ending₁, ended₁⟩
  exact Trace.mem_evaluated.mpr ⟨ending₂, ended₂, (h.ending_agrees ended₁ ended₂).symm⟩

/-- A call that is made in one run is made in the other. -/
theorem mem_dispatches (h : SideBySide s₁ s₂ p trace₁ trace₂) (executed : Executed trace₁)
    (ends : ∀ site, trace₁.HasEnded site → trace₂.HasEnded site)
    {x : Occurrence × DriverKey × String} (hx : x ∈ trace₁.dispatches) : x ∈ trace₂.dispatches := by
  obtain ⟨site, key, action⟩ := x
  obtain ⟨call₁, called₁, rfl, rfl⟩ := Trace.mem_dispatches.mp hx
  obtain ⟨call₂, called₂, driver, action⟩ := h.called called₁ (ends _ (executed _ called₁ _ rfl))
  exact Trace.mem_dispatches.mpr ⟨call₂, called₂, driver, action⟩

section Whole

variable {parts₁ parts₂ : List (List Stretch)}

/-- **The same calls are made** in two whole runs in which the same steps end. -/
theorem dispatches_perm (h : SideBySide s₁ s₂ p st₁.trace st₂.trace)
    (whole₁ : Whole s₁ p st₁ parts₁) (whole₂ : Whole s₂ p st₂ parts₂)
    (ends : ∀ site, st₁.trace.HasEnded site ↔ st₂.trace.HasEnded site) :
    st₁.trace.dispatches.Perm st₂.trace.dispatches := by
  refine (List.perm_ext_iff_of_nodup ?_ ?_).mpr fun x => ⟨?_, ?_⟩
  · exact Trace.dispatches_nodup (Trace.callers_nodup whole₁.keys)
  · exact Trace.dispatches_nodup (Trace.callers_nodup whole₂.keys)
  · exact h.mem_dispatches whole₁.executed fun site => (ends site).mp
  · exact h.symm.mem_dispatches whole₂.executed fun site => (ends site).mpr

/-- **The same bindings are evaluated** in two whole runs in which the same steps end. -/
theorem evaluated_perm (h : SideBySide s₁ s₂ p st₁.trace st₂.trace)
    (whole₁ : Whole s₁ p st₁ parts₁) (whole₂ : Whole s₂ p st₂ parts₂)
    (ends : ∀ site, st₁.trace.HasEnded site ↔ st₂.trace.HasEnded site) :
    st₁.trace.evaluated.Perm st₂.trace.evaluated := by
  refine (List.perm_ext_iff_of_nodup ?_ ?_).mpr fun x => ⟨?_, ?_⟩
  · exact (Trace.evaluated_nodup whole₁.keys).of_map
  · exact (Trace.evaluated_nodup whole₂.keys).of_map
  · exact h.mem_evaluated fun site => (ends site).mp
  · exact h.symm.mem_evaluated fun site => (ends site).mpr

/-- The logs of two whole runs tell the same, if groups are told alike and the same bindings are
evaluated. -/
theorem outlines_perm (h : SideBySide s₁ s₂ p st₁.trace st₂.trace)
    (whole₁ : Whole s₁ p st₁ parts₁) (whole₂ : Whole s₂ p st₂ parts₂)
    (groups : (st₁.entries.filter LogEntry.isGroup).map LogEntry.outline =
      (st₂.entries.filter LogEntry.isGroup).map LogEntry.outline)
    (evaluated : st₁.trace.evaluated.Perm st₂.trace.evaluated) :
    (st₁.entries.map LogEntry.outline).Perm (st₂.entries.map LogEntry.outline) := by
  have apart (entries : List LogEntry) : (entries.map LogEntry.outline).Perm
      ((entries.filter LogEntry.isGroup).map LogEntry.outline ++
        (entries.filter fun e => !e.isGroup).map LogEntry.outline) := by
    rw [← List.map_append]
    exact ((List.filter_append_perm LogEntry.isGroup entries).map _).symm
  have bindings₁ : (st₁.entries.filter fun e => !e.isGroup).map LogEntry.outline =
      st₁.trace.evaluated.map fun x => s₁.bindingOutline x.1 x.2 :=
    whole₁.outlined
  have bindings₂ : (st₂.entries.filter fun e => !e.isGroup).map LogEntry.outline =
      st₂.trace.evaluated.map fun x => s₁.bindingOutline x.1 x.2 := by
    simp only [h.twins.bindingOutline_eq]
    exact whole₂.outlined
  refine (apart st₁.entries).trans (.trans ?_ (apart st₂.entries).symm)
  rw [groups, bindings₁, bindings₂]
  exact (evaluated.map _).append_left _

end Whole

end SideBySide

end Session

/-- Two runs take the same course, whatever drivers say. -/
structure ProgramRun.SameCourse (r₁ r₂ : ProgramRun) : Prop where
  /-- The same drivers are called for the same steps by the same names, though perhaps in another
  order, for branches wait for each other. -/
  dispatches : r₁.trace.dispatches.Perm r₂.trace.dispatches
  results : r₁.results.map Envelope.success = r₂.results.map Envelope.success
  /-- The same groups are told, with the same success. -/
  groups : (r₁.log.entries.filter LogEntry.isGroup).map LogEntry.outline =
    (r₂.log.entries.filter LogEntry.isGroup).map LogEntry.outline
  /-- The same groups and bindings are told, with the same success. -/
  entries : (r₁.log.entries.map LogEntry.outline).Perm (r₂.log.entries.map LogEntry.outline)
  status : r₁.log.finalStatus = r₂.log.finalStatus

namespace Engine

/-- **Driver data cannot steer control flow.** If two engines differ in their drivers only, and
the calls that both make in a run of a program agree on success, then both take the same course. -/
theorem run_sameCourse {e₁ : Engine World₁} {e₂ : Engine World₂} (twins : e₁.Twins e₂) (p : Program)
    (context : Context) (time₁ time₂ : String) (world₁ : World₁) (world₂ : World₂)
    (agree : (e₁.run p context time₁ world₁).1.trace.CallsAgree
      (e₂.run p context time₂ world₂).1.trace) :
    (e₁.run p context time₁ world₁).1.SameCourse (e₂.run p context time₂ world₂).1 := by
  obtain ⟨st₁, parts₁, tells₁, trace₁⟩ := e₁.run_tells p context time₁ world₁
  obtain ⟨st₂, parts₂, tells₂, trace₂⟩ := e₂.run_tells p context time₂ world₂
  have whole₁ := tells₁.whole
  have whole₂ := tells₂.whole
  have sessions : Session.Twins ⟨e₁, p.bindings, context, time₁⟩ ⟨e₂, p.bindings, context, time₂⟩ :=
    ⟨twins, rfl, rfl⟩
  have beside : Session.SideBySide _ _ p st₁.trace st₂.trace :=
    ⟨sessions, whole₁.explained, whole₂.explained, by rw [trace₁, trace₂]; exact agree⟩
  obtain ⟨results, stretches₁⟩ := tells₁.agree twins.settings tells₂
    (fun stage => .initial _ stage world₁) fun pipeline group path _ _ => beside.ending_agrees
  obtain ⟨-, stretches₂⟩ := tells₂.agree twins.settings.symm tells₁
    (fun stage => .initial _ stage world₂) fun pipeline group path _ _ => beside.symm.ending_agrees
  have ends (site : Occurrence) : st₁.trace.HasEnded site ↔ st₂.trace.HasEnded site :=
    ⟨beside.whole_hasEnded whole₁ stretches₁ site, beside.symm.whole_hasEnded whole₂ stretches₂ site⟩
  have groups : (st₁.entries.filter LogEntry.isGroup).map LogEntry.outline =
      (st₂.entries.filter LogEntry.isGroup).map LogEntry.outline := by
    rw [RunState.entries, RunState.entries, whole₁.groups, whole₂.groups, List.map_map,
      List.map_map]
    exact stretches₁.outlines
  have entries := beside.outlines_perm whole₁ whole₂ groups
    (beside.evaluated_perm whole₁ whole₂ ends)
  have dispatches := beside.dispatches_perm whole₁ whole₂ ends
  rw [trace₁, trace₂] at dispatches
  rw [RunState.entries, RunState.entries, trace₁, trace₂] at groups entries
  refine ⟨dispatches, results, groups, entries, ?_⟩
  have all (results : List Envelope) :
      results.all Envelope.success = (results.map Envelope.success).all id := by
    rw [List.all_map]
    rfl
  show (if (e₁.run p context time₁ world₁).1.results.all Envelope.success then _ else _) =
    if (e₂.run p context time₂ world₂).1.results.all Envelope.success then _ else _
  rw [all, all, results]

/-- An engine that differs from `echoing` in its driver, which answers with the texts of a variable
and of the placeholder. -/
def taunting : Engine Unit :=
  let answer : Envelope := ⟨true, some (.string "$z"), some previousPlaceholder, some "$x"⟩
  { echoing with
    drivers := DriverTable.empty.register (.node "source")
      ⟨fun _ world => ((Reply.answered answer).atOnce, world), []⟩ }

theorem twins_taunting : echoing.Twins taunting where
  registry := rfl
  settings := rfl
  drivers := by
    rintro (id | id)
    · show ((NameMap.empty.insert "source" _).get? id).isSome =
        ((NameMap.empty.insert "source" _).get? id).isSome
      rw [NameMap.get?_insert, NameMap.get?_insert]
      split
      · rfl
      · rfl
    · rfl

/-- Results that read like variables are passed on as they are, and change nothing. -/
theorem run_sameCourse_diamond :
    (echoing.run .diamond (.ofRun "r") "" ()).1.results ≠
        (taunting.run .diamond (.ofRun "r") "" ()).1.results ∧
      (echoing.run .diamond (.ofRun "r") "" ()).1.SameCourse
        (taunting.run .diamond (.ofRun "r") "" ()).1 := by
  refine ⟨by decide +kernel, run_sameCourse twins_taunting .diamond (.ofRun "r") "" "" () () ?_⟩
  exact Trace.callsAgree_of_callsSucceed (by decide +kernel) (by decide +kernel)

/-- An engine whose driver takes its time for one target. -/
def lingering (target : String) : Engine Unit :=
  { echoing with
    drivers := DriverTable.empty.register (.node "source")
      ⟨fun request world =>
        (⟨.answered .done, if request.target = some target then 1 else 0⟩, world), []⟩ }

/-- Bindings that branches ask for side by side are told in the order in which they end, so that
logs agree up to order only. -/
example :
    let p : Program := {
      bindings := [⟨"x", (Step.ofRoute "source" "echo").withTarget "a"⟩,
        ⟨"y", (Step.ofRoute "source" "echo").withTarget "b"⟩]
      pipelines := [⟨[.parallel [.single ((Step.ofRoute "source" "echo").withTarget "$x"),
        .single ((Step.ofRoute "source" "echo").withTarget "$y")]]⟩] }
    ["a", "b"].map (fun target => (((lingering target).run p (.ofRun "r") "" ()).1.log.entries.map
      LogEntry.label).take 2) = [["$y", "$x"], ["$x", "$y"]] := by
  decide +kernel

end Engine

end CapabilityPipeline
