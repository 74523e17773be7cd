import CapabilityPipeline.Proofs.Execution.Move

/-!
# Steps advance by moves

Advancing a step makes moves that were possible, and what it returns is what can then be read off
the trace. An advance that does nothing tells why the step goes no further.

Results:

* `Session.Advances`: moves that add events about some steps only.
* `Session.Waits`: why a step goes no further.
* `Session.advanceStep_spec`: a step is advanced by moves about itself and the bindings it sees.
-/

namespace CapabilityPipeline

open Json (Value)

namespace Session

variable {World : Type} {s : Session World} {stage : Stage}

/-! ## Computations within a run -/

theorem run_bind {α β : Type} (x : Run World α) (f : α → Run World β) (st : RunState World) :
    (x >>= f).run st = (f (x.run st).1).run (x.run st).2 := rfl

theorem run_pure {α : Type} (a : α) (st : RunState World) :
    (pure a : Run World α).run st = (a, st) := rfl

theorem run_get (st : RunState World) : (get : Run World (RunState World)).run st = (st, st) := rfl

theorem run_observe (event : Event) (st : RunState World) :
    (Run.observe event).run st = ((), observed st event) := rfl

theorem run_observeOnce (event : Event) (st : RunState World) :
    (Run.observeOnce event).run st =
      ((), if event ∈ st.trace then st else observed st event) := rfl

/-! ## Moves about some steps -/

/-- Where nothing has happened in the end, nothing has happened on the way. -/
theorem Moves.trace_eq_left {st mid st' : RunState World} (h : s.Moves stage st mid)
    (h' : s.Moves stage mid st') (same : st'.trace = st.trace) : mid.trace = st.trace :=
  (h.trace_prefix.eq_of_length_le (same ▸ h'.trace_prefix.length_le)).symm

/-- Moves that only add events about some steps, and log entries beside them. -/
structure Advances (s : Session World) (stage : Stage) (about : Occurrence → Prop)
    (st st' : RunState World) : Prop where
  moves : s.Moves stage st st'
  frame : ∃ added, st'.trace = st.trace ++ added ∧
    (∀ event ∈ added, ∀ site, event.step? = some site → about site) ∧
    (added ≠ [] → ∃ event ∈ added, event.step? ≠ none)

namespace Advances

variable {about : Occurrence → Prop} {st mid st' : RunState World}

theorem refl (st : RunState World) : s.Advances stage about st st :=
  ⟨.refl, [], (List.append_nil _).symm, (fun _ h => by cases h), fun h => absurd rfl h⟩

theorem trans (h : s.Advances stage about st mid) (h' : s.Advances stage about mid st') :
    s.Advances stage about st st' := by
  obtain ⟨added, same, only, busy⟩ := h.frame
  obtain ⟨added', same', only', busy'⟩ := h'.frame
  refine ⟨h.moves.trans h'.moves, added ++ added', ?_, fun event hmem => ?_, fun some => ?_⟩
  · rw [same', same, List.append_assoc]
  · rcases List.mem_append.mp hmem with hmem | hmem
    · exact only event hmem
    · exact only' event hmem
  · by_cases first : added = []
    · rw [first, List.nil_append] at some ⊢
      exact busy' some
    · obtain ⟨event, hmem, step⟩ := busy first
      exact ⟨event, List.mem_append_left _ hmem, step⟩

theorem mono (h : s.Advances stage about st st') {wider : Occurrence → Prop}
    (sub : ∀ site, about site → wider site) : s.Advances stage wider st st' := by
  obtain ⟨added, same, only, busy⟩ := h.frame
  exact ⟨h.moves, added, same, fun event hmem site hs => sub site (only event hmem site hs), busy⟩

/-- One move that adds an event about a step. -/
theorem single {event : Event} {site : Occurrence} (step : event.step? = some site)
    (move : s.Move stage st st') (same : st'.trace = st.trace ++ [event]) (only : about site) :
    s.Advances stage about st st' := by
  refine ⟨.single move, [event], same, fun _ he other hs => ?_,
    fun _ => ⟨event, List.mem_singleton_self _, by rw [step]; exact Option.some_ne_none _⟩⟩
  rw [List.mem_singleton.mp he, step] at hs
  exact Option.some.inj hs ▸ only

/-- An entry is logged after a step has ended. -/
theorem log (h : s.Advances stage about st st') {site : Occurrence}
    (unended : st.trace.ending? site = none) {ending : Ending}
    (ended : st'.trace.ending? site = some ending) (entry : LogEntry) :
    s.Advances stage about st (observed st' (.logged entry)) := by
  obtain ⟨added, same, only, busy⟩ := h.frame
  refine ⟨h.moves.tail (.log entry), added ++ [.logged entry], ?_, fun event hmem => ?_, fun _ => ?_⟩
  · rw [observed, same, List.append_assoc]
  · rcases List.mem_append.mp hmem with hmem | hmem
    · exact only event hmem
    · rw [List.mem_singleton.mp hmem]
      exact fun _ hs => by cases hs
  · rw [same, Trace.ending?_append, unended, Option.none_or] at ended
    exact ⟨_, List.mem_append_left _ (Trace.mem_of_ending? ended), Option.some_ne_none _⟩

theorem trace_prefix (h : s.Advances stage about st st') : st.trace <+: st'.trace :=
  h.moves.trace_prefix

/-- Whether and how a step has ended stays the same if the moves are not about it. -/
theorem ending?_eq (h : s.Advances stage about st st') {site : Occurrence} (other : ¬about site) :
    st'.trace.ending? site = st.trace.ending? site := by
  obtain ⟨added, same, only, -⟩ := h.frame
  rw [same, Trace.ending?_append]
  have none : Trace.ending? added site = none := by
    rw [Trace.ending?_eq_none]
    intro ending hmem
    exact other (only _ hmem site rfl)
  rw [none, Option.or_none]

/-- A step that the moves are not about does not end. -/
theorem unended (h : s.Advances stage about st st') {site : Occurrence} (other : ¬about site)
    (unended : st.trace.ending? site = none) : st'.trace.ending? site = none := by
  rw [h.ending?_eq other, unended]

/-- For a step that the moves are not about, no driver is called. -/
theorem uncalled (h : s.Advances stage about st st') {site : Occurrence} (other : ¬about site)
    (uncalled : st.trace.call? site = none) : st'.trace.call? site = none := by
  obtain ⟨added, same, only, -⟩ := h.frame
  rw [same, Trace.call?_append, uncalled, Option.none_or, Trace.call?_eq_none]
  intro call hmem
  exact other (only _ hmem site rfl)

end Advances

/-! ## Steps -/

/-- The step at a site and the bindings below a limit. -/
def Within (limit : Nat) (site other : Occurrence) : Prop :=
  other = site ∨ ∃ index < limit, other = .binding index

/-- The bindings below a limit. -/
def Below (limit : Nat) (other : Occurrence) : Prop :=
  ∃ index < limit, other = .binding index

/-- Why a step goes no further: it waits for a result, for another step that evaluates a binding,
or for a binding that it evaluates and that goes no further itself. -/
inductive Waits (trace : Trace) : Occurrence → Prop
  | result {site : Occurrence} {call : Call} (called : trace.call? site = some call)
      (unanswered : trace.answer? site = none) : Waits trace site
  | other {site : Occurrence} {index : Nat} (forced : .forced site index ∈ trace)
      (unknown : trace.value? index = none) (keeper : trace.keeper? index ≠ some site) :
      Waits trace site
  | binding {site : Occurrence} {index : Nat} (forced : .forced site index ∈ trace)
      (unknown : trace.value? index = none) (waits : Waits trace (.binding index)) :
      Waits trace site

/-- The way in which an advance of a step ends: what it returns can be read off the trace, and so
can be why it has done nothing. -/
structure StepSpec (s : Session World) (stage : Stage) (limit : Nat) (site : Occurrence)
    (st : RunState World) (p : Option Envelope × RunState World) : Prop where
  advances : s.Advances stage (Within limit site) st p.2
  result : p.1 = (p.2.trace.ending? site).map Ending.envelope
  waits : p.2.trace = st.trace → p.1 = none → Waits p.2.trace site

/-- Forcing a binding advances it, and returns its result if there is one then. -/
structure ForceSpec (s : Session World) (stage : Stage) (limit : Nat) (site : Occurrence)
    (index : Nat) (st : RunState World) (p : Option Envelope × RunState World) : Prop where
  advances : s.Advances stage (Below limit) st p.2
  result : p.1 = p.2.trace.value? index
  waits : p.2.trace = st.trace → p.1 = none →
    p.2.trace.keeper? index ≠ some site ∨ Waits p.2.trace (.binding index)

/-- A step that gathers the payloads of names stays ready, and is told what can then be read off
the trace. -/
structure GatherSpec (s : Session World) (stage : Stage) (site : Occurrence) (task : Task)
    (st : RunState World) (p : Gathering × RunState World) : Prop where
  advances : s.Advances stage (Within task.limit site) st p.2
  ready : s.Ready stage p.2.trace site task
  result : p.1 = (s.asking p.2.trace task).gathering
  waits : p.2.trace = st.trace → p.1 = .waiting → Waits p.2.trace site

/-- A ready step stays ready while no driver is called for it and it does not end. -/
theorem Ready.concat {trace : Trace} {site : Occurrence} {task : Task}
    (ready : s.Ready stage trace site task) {event : Event}
    (uncalled : ∀ call, event ≠ .called site call) (unended : ∀ ending, event ≠ .ended site ending) :
    s.Ready stage (trace ++ [event]) site task where
  task := s.task?_mono (List.prefix_append _ _) stage ready.task
  uncalled := by
    rw [Trace.call?_append, ready.uncalled, Option.none_or, Trace.call?_eq_none]
    exact fun call hmem => uncalled call (List.mem_singleton.mp hmem).symm
  unended := by
    rw [Trace.ending?_append, ready.unended, Option.none_or, Trace.ending?_eq_none]
    exact fun ending hmem => unended ending (List.mem_singleton.mp hmem).symm

theorem Ready.advances {st st' : RunState World} {site : Occurrence} {task : Task}
    {about : Occurrence → Prop} (ready : s.Ready stage st.trace site task)
    (h : s.Advances stage about st st') (other : ¬about site) :
    s.Ready stage st'.trace site task where
  task := s.task?_mono h.trace_prefix stage ready.task
  uncalled := h.uncalled other ready.uncalled
  unended := h.unended other ready.unended

/-- Asking for a binding once more changes nothing. -/
theorem observeOnce_spec {st : RunState World} {site : Occurrence} {task : Task} {index : Nat}
    (ready : s.Ready stage st.trace site task) (asks : s.Asks st.trace task index) :
    s.Advances stage (· = site) st ((Run.observeOnce (.forced site index)).run st).2 ∧
      s.Ready stage ((Run.observeOnce (.forced site index)).run st).2.trace site task ∧
      .forced site index ∈ ((Run.observeOnce (.forced site index)).run st).2.trace := by
  rw [run_observeOnce]
  dsimp only
  split
  · next already => exact ⟨.refl st, ready, already⟩
  · next new =>
    refine ⟨.single rfl (.force ready asks new) rfl rfl, ?_, ?_⟩
    · exact ready.concat nofun nofun
    · exact List.mem_append_right _ (List.mem_singleton_self _)

theorem gather_spec {site : Occurrence} {task : Task} (outside : ¬Below task.limit site)
    {force : (index : Nat) → index < task.limit → Binding → Run World (Option Envelope)}
    (hforce : ∀ index visible binding st, s.bindings[index]? = some binding →
      .forced site index ∈ st.trace →
      s.ForceSpec stage task.limit site index st ((force index visible binding).run st))
    (names before : List String) (found : NameMap Value) (st : RunState World)
    (mentions : task.step.mentions.keys = before ++ names)
    (ready : s.Ready stage st.trace site task)
    (complete : ask s.bindings st.trace.value? task.limit before .empty = .complete found) :
    s.GatherSpec stage site task st ((s.gather site task.limit force names found).run st) := by
  induction names generalizing before found st with
  | nil =>
    rw [gather, run_pure]
    refine ⟨.refl st, ready, ?_, fun _ waiting => by cases waiting⟩
    rw [asking, mentions, List.append_nil, complete]
    rfl
  | cons name rest ih =>
    have here {later : Trace} (grown : st.trace <+: later) : s.asking later task =
        ask s.bindings later.value? task.limit (name :: rest) found := by
      have still := ask_complete_mono (fun _ _ => Trace.value?_mono grown) complete
      rw [asking, mentions, ask_append still]
    rw [gather]
    cases same : lastBinding? name s.bindings with
    | none =>
      refine ⟨.refl st, ready, ?_, fun _ waiting => by cases waiting⟩
      rw [run_pure, here (List.prefix_refl _), ask, same]
      rfl
    | some entry =>
      obtain ⟨index, binding⟩ := entry
      dsimp only
      by_cases visible : index < task.limit
      · rw [dif_pos visible, run_bind]
        have asks : s.Asks st.trace task index :=
          ⟨before, name, rest, found, binding, mentions, complete, same, visible⟩
        obtain ⟨asked, ready', forced⟩ := observeOnce_spec ready asks
        generalize ((Run.observeOnce (.forced site index)).run st).2 = st1 at asked ready' forced ⊢
        rw [run_bind]
        have forces := hforce index visible binding st1 (lastBinding?_mem same).1 forced
        generalize (force index visible binding).run st1 = p at forces ⊢
        obtain ⟨result, st2⟩ := p
        have ready2 := ready'.advances forces.advances outside
        have advances : s.Advances stage (Within task.limit site) st st2 :=
          (asked.mono fun _ h => .inl h).trans (forces.advances.mono fun _ h => .inr h)
        have value : result = st2.trace.value? index := forces.result
        cases result with
        | none =>
          refine ⟨advances, ready2, ?_, fun still _ => ?_⟩
          · rw [run_pure, here advances.trace_prefix, ask_cons_visible same visible, ← value]
            rfl
          · have forced' := forces.advances.trace_prefix.subset forced
            have first := asked.moves.trace_eq_left forces.advances.moves still
            rcases forces.waits (still.trans first.symm) rfl with keeper | waits
            · exact .other forced' value.symm keeper
            · exact .binding forced' value.symm waits
        | some result =>
          dsimp only
          by_cases success : result.success = true
          · rw [if_pos success]
            have next : ask s.bindings st2.trace.value? task.limit (before ++ [name]) .empty =
                .complete (found.insert name result.payload) := by
              have still := ask_complete_mono
                (fun _ _ => Trace.value?_mono advances.trace_prefix) complete
              rw [ask_append still, ask_cons_visible same visible, ← value]
              dsimp only
              rw [if_pos success, ask]
            have later := ih (before ++ [name]) _ st2 (by rw [mentions]; simp) ready2 next
            refine ⟨advances.trans later.advances, later.ready, later.result, fun still => ?_⟩
            have first := advances.moves.trace_eq_left later.advances.moves still
            exact later.waits (still.trans first.symm)
          · rw [if_neg success]
            refine ⟨advances, ready2, ?_, fun _ waiting => by cases waiting⟩
            rw [run_pure, here advances.trace_prefix, ask_cons_visible same visible, ← value]
            dsimp only
            rw [if_neg success]
            rfl
      · rw [dif_neg visible]
        refine ⟨.refl st, ready, ?_, fun _ waiting => by cases waiting⟩
        rw [run_pure, here (List.prefix_refl _), ask_cons_hidden same visible]
        rfl

theorem finish_spec {site : Occurrence} {ending : Ending} (limit : Nat) {st : RunState World}
    (move : s.Move stage st (observed st (.ended site ending)))
    (unended : st.trace.ending? site = none) :
    s.StepSpec stage limit site st ((finish site ending).run st) where
  advances := .single rfl move rfl (.inl rfl)
  result := by
    show some ending.envelope = _
    rw [finish, run_bind, run_observe, run_pure]
    dsimp only
    rw [observed, Trace.ending?_append, unended, Option.none_or]
    simp [Trace.ending?]
  waits := fun _ none => by cases none

/-- Dispatching the resolved step of a site. -/
theorem dispatch_spec {site : Occurrence} {task : Task} {found : NameMap Value}
    {st : RunState World} (ready : s.Ready stage st.trace site task)
    (complete : s.asking st.trace task = .complete found) :
    s.StepSpec stage task.limit site st
      ((s.dispatch site (s.resolved task found)).run st) := by
  rw [dispatch]
  cases route : s.route (s.resolved task found) with
  | error e => exact finish_spec task.limit (.refuse ready complete route) ready.unended
  | ok target =>
    obtain ⟨driver, key, action⟩ := target
    let call : Call := ⟨key, action, (s.resolved task found).target, (s.resolved task found).params⟩
    have move := Move.call ready complete route
    have about : (Event.called site call).step? = some site := rfl
    refine ⟨.single about move rfl (.inl rfl), ?_, fun same _ => ?_⟩
    · show none = (Trace.ending? (st.trace ++ [.called site call]) site).map _
      rw [Trace.ending?_append, ready.unended]
      rfl
    · have grown : st.trace ++ [.called site call] = st.trace := same
      have length := congrArg List.length grown
      rw [List.length_append, List.length_singleton] at length
      omega

theorem not_below_binding (index : Nat) : ¬Below index (.binding index) := by
  rintro ⟨other, lower, same⟩
  cases same
  exact Nat.lt_irrefl index lower

/-- Forcing a binding, when advances of right-hand sides do what they should. -/
theorem force_spec {limit : Nat} (site : Occurrence) {index : Nat} (visible : index < limit)
    {binding : Binding} {st : RunState World} (known : s.bindings[index]? = some binding)
    (ih : ∀ st : RunState World,
      s.task? stage st.trace (.binding index) = some ⟨binding.step, none, index⟩ →
      s.StepSpec stage index (.binding index) st
        ((s.advanceStep index (.binding index) binding.step none).run st)) :
    s.ForceSpec stage limit site index st ((do
      let trace := (← get).trace
      match trace.ending? (.binding index) with
      | some ending => return some ending.envelope
      | none =>
        if trace.keeper? index = some site then
          match ← s.advanceStep index (.binding index) binding.step none with
          | none => return none
          | some result =>
            Run.record none "binding" s!"${binding.name}" result s.time
            return some result
        else return none : Run World (Option Envelope)).run st) := by
  rw [run_bind, run_get]
  dsimp only
  cases unended : st.trace.ending? (.binding index) with
  | some ending =>
    refine ⟨.refl st, ?_, fun _ none => by cases none⟩
    rw [run_pure, Trace.value?, unended]
    rfl
  | none =>
    dsimp only
    split
    · next keeper =>
      have task : s.task? stage st.trace (.binding index) = some ⟨binding.step, none, index⟩ := by
        rw [task?, keeper, known]
        rfl
      have step := ih st task
      rw [run_bind]
      generalize (s.advanceStep index (.binding index) binding.step none).run st = p at step ⊢
      obtain ⟨result, st1⟩ := p
      have advances : s.Advances stage (Below limit) st st1 := by
        refine step.advances.mono fun other within => ?_
        rcases within with rfl | ⟨lower, less, rfl⟩
        · exact ⟨index, visible, rfl⟩
        · exact ⟨lower, Nat.lt_trans less visible, rfl⟩
      have value : result = st1.trace.value? index := step.result
      cases result with
      | none => exact ⟨advances, value, fun same _ => .inr (step.waits same rfl)⟩
      | some result =>
        obtain ⟨ending, ended, same⟩ := Option.map_eq_some_iff.mp value.symm
        refine ⟨advances.log unended ended _, ?_, fun _ none => by cases none⟩
        exact (Trace.value?_mono (List.prefix_append _ _) value.symm).symm
    · next keeper =>
      refine ⟨.refl st, ?_, fun _ _ => .inl keeper⟩
      rw [run_pure, Trace.value?, unended]
      rfl

/-- **A step is advanced by moves about itself and the bindings that it sees**, and what is
returned is its ending, if it has one then. -/
theorem advanceStep_spec (limit : Nat) (site : Occurrence) (step : Step) (previous : Option Value)
    (outside : ¬Below limit site) (st : RunState World)
    (task : s.task? stage st.trace site = some ⟨step, previous, limit⟩) :
    s.StepSpec stage limit site st ((s.advanceStep limit site step previous).run st) := by
  induction limit using Nat.strongRecOn generalizing site step previous st with
  | ind limit ih =>
    rw [advanceStep, run_bind, run_get]
    dsimp only
    cases unended : st.trace.ending? site with
    | some ending =>
      refine ⟨.refl st, ?_, fun _ none => by cases none⟩
      rw [run_pure]
      exact (congrArg (Option.map Ending.envelope) unended).symm
    | none =>
      cases uncalled : st.trace.call? site with
      | some call =>
        cases answered : st.trace.answer? site with
        | some result => exact finish_spec limit (.finish task uncalled answered unended) unended
        | none =>
          refine ⟨.refl st, ?_, fun _ _ => .result uncalled answered⟩
          rw [run_pure]
          exact (congrArg (Option.map Ending.envelope) unended).symm
      | none =>
        dsimp only
        rw [run_bind]
        have ready : s.Ready stage st.trace site ⟨step, previous, limit⟩ := ⟨task, uncalled, unended⟩
        generalize gathered : StateT.run (s.gather site limit _ step.mentions.keys .empty) st = p
        have gathers : s.GatherSpec stage site ⟨step, previous, limit⟩ st p := by
          rw [← gathered]
          exact gather_spec outside (fun index visible binding st1 known _ =>
            force_spec site visible known fun st2 task2 => ih index visible (.binding index)
              binding.step none (not_below_binding index) st2 task2)
            step.mentions.keys [] .empty st rfl ready rfl
        obtain ⟨result, st1⟩ := p
        obtain ⟨advances, ready1, told, waits⟩ := gathers
        dsimp only at advances ready1 told waits
        cases asked : s.asking st1.trace ⟨step, previous, limit⟩ with
        | waiting index =>
          rw [told, asked]
          refine ⟨advances, ?_, fun same _ => waits same (by rw [told, asked]; rfl)⟩
          show none = _
          exact (congrArg (Option.map Ending.envelope) ready1.unended).symm
        | blocked ending =>
          rw [told, asked]
          have ends := finish_spec limit (.block ready1 asked) ready1.unended
          exact ⟨advances.trans ends.advances, ends.result, fun _ none => by cases none⟩
        | complete found =>
          rw [told, asked]
          have dispatched := dispatch_spec ready1 asked
          refine ⟨advances.trans dispatched.advances, dispatched.result, fun same => ?_⟩
          exact dispatched.waits
            (same.trans (advances.moves.trace_eq_left dispatched.advances.moves same).symm)

end Session

end CapabilityPipeline
