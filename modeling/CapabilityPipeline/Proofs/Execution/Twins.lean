import CapabilityPipeline.Proofs.Execution.Explained

/-!
# Runs side by side

Two engines whose drivers do different things run the same program. Where the calls that both make
agree on success, so does all that depends on it: which bindings can be had, which steps call which
drivers, which steps, branches and groups succeed, and which fallbacks are reached.

Results:

* `Engine.Twins`: engines that differ in what their drivers do only.
* `Session.SideBySide`: traces of twins whose calls agree on success.
* `Session.SideBySide.ending_agrees`, `Session.SideBySide.called`: what steps come to.
* `Session.outcome?_agrees`, `Session.reached?_agrees`: what groups come to, and their steps.
-/

namespace CapabilityPipeline

open Json (Value)

variable {World₁ World₂ : Type}

/-! ## Twins -/

/-- Engines that differ in what their drivers do, and in nothing else. -/
structure Engine.Twins (e₁ : Engine World₁) (e₂ : Engine World₂) : Prop where
  registry : e₁.registry = e₂.registry
  settings : e₁.settings = e₂.settings
  drivers : ∀ key, (e₁.drivers.get? key).isSome = (e₂.drivers.get? key).isSome

theorem Engine.Twins.symm {e₁ : Engine World₁} {e₂ : Engine World₂} (h : e₁.Twins e₂) :
    e₂.Twins e₁ :=
  ⟨h.registry.symm, h.settings.symm, fun key => (h.drivers key).symm⟩

/-- Runs of one program by twins. -/
structure Session.Twins (s₁ : Session World₁) (s₂ : Session World₂) : Prop where
  engines : s₁.engine.Twins s₂.engine
  bindings : s₁.bindings = s₂.bindings
  context : s₁.context = s₂.context

theorem Session.Twins.symm {s₁ : Session World₁} {s₂ : Session World₂} (h : s₁.Twins s₂) :
    s₂.Twins s₁ :=
  ⟨h.engines.symm, h.bindings.symm, h.context.symm⟩

theorem DriverTable.resolve_map_snd {t₁ : DriverTable World₁} {t₂ : DriverTable World₂}
    (same : ∀ key, (t₁.get? key).isSome = (t₂.get? key).isSome) (domain action : String)
    (descriptor : Action) : (t₁.resolve domain action descriptor).map Prod.snd =
      (t₂.resolve domain action descriptor).map Prod.snd := by
  rw [resolve, resolve]
  dsimp only
  have either := same (descriptor.handler.destination domain action).1
  split
  · next found =>
    rw [found] at either
    obtain ⟨d, found'⟩ := Option.isSome_iff_exists.mp either.symm
    rw [found']
    rfl
  · next missing =>
    rw [missing] at either
    rw [Option.isNone_iff_eq_none.mp (Option.isSome_eq_false_iff.mp either.symm)]
    rfl

namespace Session

/-- Twins route steps to the same places. -/
theorem Twins.destination_eq {s₁ : Session World₁} {s₂ : Session World₂} (h : s₁.Twins s₂)
    (step : Step) : s₁.destination step = s₂.destination step := by
  rw [destination, destination, route, route, h.context, h.engines.registry]
  split
  · split
    · exact DriverTable.resolve_map_snd h.engines.drivers _ _ _
    · rfl
  · rfl

end Session

/-! ## Asking -/

/-- Two steps that ask come to the same, unless one of them waits. -/
inductive Asking.Agrees : Asking → Asking → Prop
  | waitingLeft {index : Nat} {a : Asking} : Agrees (.waiting index) a
  | waitingRight {index : Nat} {a : Asking} : Agrees a (.waiting index)
  | blocked {ending₁ ending₂ : Ending} : Agrees (.blocked ending₁) (.blocked ending₂)
  | complete {found₁ found₂ : NameMap Value} : Agrees (.complete found₁) (.complete found₂)

/-- What a step comes to that asks for bindings depends on their success only. -/
theorem ask_agrees {bindings : List Binding} {value₁? value₂? : Nat → Option Envelope} {limit : Nat}
    (same : ∀ index < limit, ∀ result₁ result₂, value₁? index = some result₁ →
      value₂? index = some result₂ → result₁.success = result₂.success)
    (names : List String) (start₁ start₂ : NameMap Value) :
    (ask bindings value₁? limit names start₁).Agrees (ask bindings value₂? limit names start₂) := by
  induction names generalizing start₁ start₂ with
  | nil => exact .complete
  | cons name rest ih =>
    cases refers : lastBinding? name bindings with
    | none =>
      rw [ask, ask, refers]
      exact .blocked
    | some entry =>
      obtain ⟨index, b⟩ := entry
      by_cases visible : index < limit
      · rw [ask_cons_visible refers visible, ask_cons_visible refers visible]
        cases known₁ : value₁? index with
        | none => exact .waitingLeft
        | some result₁ =>
          cases known₂ : value₂? index with
          | none => exact .waitingRight
          | some result₂ =>
            dsimp only
            rw [same index visible result₁ result₂ known₁ known₂]
            split
            · exact ih _ _
            · exact .blocked
      · rw [ask_cons_hidden refers visible, ask_cons_hidden refers visible]
        exact .blocked

/-- A step that waits for a binding does not come to the names behind it. -/
theorem ask_append_waiting {bindings : List Binding} {value? : Nat → Option Envelope}
    {limit index : Nat} {before : List String} {start : NameMap Value}
    (h : ask bindings value? limit before start = .waiting index) (names : List String) :
    ask bindings value? limit (before ++ names) start = .waiting index := by
  induction before generalizing start with
  | nil => cases h
  | cons name rest ih =>
    cases refers : lastBinding? name bindings with
    | none =>
      rw [ask, refers] at h
      cases h
    | some entry =>
      obtain ⟨other, b⟩ := entry
      rw [List.cons_append]
      by_cases visible : other < limit
      · rw [ask_cons_visible refers visible] at h ⊢
        cases known : value? other with
        | none =>
          rw [known] at h
          exact h
        | some result =>
          rw [known] at h
          dsimp only at h ⊢
          split at h
          · next success =>
            rw [if_pos success]
            exact ih h
          · cases h
      · rw [ask_cons_hidden refers visible] at h
        cases h

namespace Session

/-! ## What explains calls and endings -/

section Explained

variable {World : Type} {s : Session World} {p : Program} {trace : Trace} {site : Occurrence}

/-- A task comes to a call: all its bindings can be had, and it is routed to a driver. -/
structure Calls (s : Session World) (trace : Trace) (task : Task) (key : DriverKey)
    (action : String) : Prop where
  complete : ∃ found, s.asking trace task = .complete found
  routed : s.destination task.step = .ok (key, action)

theorem Explained.calls (h : s.Explained p trace) {call : Call} (called : .called site call ∈ trace) :
    ∃ task, p.task? site = some task ∧ s.Calls trace task call.driver call.action := by
  cases h _ called with
  | called has complete routed => exact ⟨_, has, ⟨_, complete⟩, routed⟩

/-- A step succeeds by a call. -/
theorem Explained.called_of_success (h : s.Explained p trace) {ending : Ending}
    (ended : .ended site ending ∈ trace) (success : ending.envelope.success = true) :
    ∃ call, .called site call ∈ trace ∧ .answered site ending.envelope ∈ trace := by
  cases h _ ended with
  | blocked has blocked =>
    rw [ask_blocked_fails blocked] at success
    cases success
  | refused => cases success
  | finished has complete routed called answered => exact ⟨_, called, answered⟩

/-- A step that comes to a call ends with its result. -/
theorem Explained.called_of_calls (h : s.Explained p trace) {task : Task}
    (has : p.task? site = some task) {key : DriverKey} {action : String}
    (calls : s.Calls trace task key action) {ending : Ending}
    (ended : .ended site ending ∈ trace) : ∃ call, .called site call ∈ trace ∧
      call.driver = key ∧ call.action = action ∧ .answered site ending.envelope ∈ trace := by
  obtain ⟨⟨found, complete⟩, routed⟩ := calls
  cases h _ ended with
  | blocked has' blocked =>
    cases has.symm.trans has'
    cases complete.symm.trans blocked
  | refused has' _ refused =>
    cases has.symm.trans has'
    cases routed.symm.trans refused
  | @finished _ _ _ call _ has' _ routed' called answered =>
    cases has.symm.trans has'
    cases routed.symm.trans routed'
    exact ⟨call, called, rfl, rfl, answered⟩

theorem Explained.task (h : s.Explained p trace) {ending : Ending}
    (ended : .ended site ending ∈ trace) : ∃ task, p.task? site = some task := by
  cases h _ ended with
  | blocked has => exact ⟨_, has⟩
  | refused has => exact ⟨_, has⟩
  | finished has => exact ⟨_, has⟩

/-- A step that has ended does not wait. -/
theorem Explained.not_waiting (h : s.Explained p trace) {ending : Ending}
    (ended : .ended site ending ∈ trace) {task : Task} (has : p.task? site = some task)
    (index : Nat) : s.asking trace task ≠ .waiting index := by
  intro waiting
  cases h _ ended with
  | blocked has' blocked =>
    cases has.symm.trans has'
    cases waiting.symm.trans blocked
  | refused has' complete =>
    cases has.symm.trans has'
    cases waiting.symm.trans complete
  | finished has' complete =>
    cases has.symm.trans has'
    cases waiting.symm.trans complete

end Explained

end Session

/-! ## Side by side -/

namespace Trace

/-- The calls that are made in both of two traces agree on success. -/
def CallsAgree (trace₁ trace₂ : Trace) : Prop :=
  ∀ site result₁ result₂, .answered site result₁ ∈ trace₁ → .answered site result₂ ∈ trace₂ →
    result₁.success = result₂.success

/-- The bindings below a limit that are evaluated in both traces agree on success. -/
def BindingsAgree (trace₁ trace₂ : Trace) (limit : Nat) : Prop :=
  ∀ index < limit, ∀ result₁ result₂, trace₁.value? index = some result₁ →
    trace₂.value? index = some result₂ → result₁.success = result₂.success

/-- The steps of a group that end in both traces agree on success. -/
def StepsAgree (trace₁ trace₂ : Trace) (pipeline group : Nat) : Prop :=
  ∀ path ending₁ ending₂, .ended (.leaf pipeline group path) ending₁ ∈ trace₁ →
    .ended (.leaf pipeline group path) ending₂ ∈ trace₂ →
    ending₁.envelope.success = ending₂.envelope.success

/-- A step has ended. -/
def HasEnded (trace : Trace) (site : Occurrence) : Prop :=
  ∃ ending, .ended site ending ∈ trace

theorem BindingsAgree.symm {trace₁ trace₂ : Trace} {limit : Nat}
    (h : trace₁.BindingsAgree trace₂ limit) : trace₂.BindingsAgree trace₁ limit :=
  fun index less result₂ result₁ known₂ known₁ =>
    (h index less result₁ result₂ known₁ known₂).symm

end Trace

theorem Program.limit_of_task? {p : Program} {site : Occurrence} {task : Task}
    (h : p.task? site = some task) : task.limit = p.scope site := by
  obtain ⟨step, -, rfl⟩ := Option.map_eq_some_iff.mp h
  rfl

theorem Program.lt_length_of_task? {p : Program} {index : Nat} {task : Task}
    (h : p.task? (.binding index) = some task) : index < p.bindings.length := by
  obtain ⟨step, found, -⟩ := Option.map_eq_some_iff.mp h
  obtain ⟨b, known, -⟩ := Option.map_eq_some_iff.mp found
  exact (List.getElem?_eq_some_iff.mp known).1

namespace Session

/-- Traces of twins that run a program, whose calls agree on success. -/
structure SideBySide (s₁ : Session World₁) (s₂ : Session World₂) (p : Program)
    (trace₁ trace₂ : Trace) : Prop where
  twins : s₁.Twins s₂
  explained₁ : s₁.Explained p trace₁
  explained₂ : s₂.Explained p trace₂
  calls : trace₁.CallsAgree trace₂

namespace SideBySide

variable {s₁ : Session World₁} {s₂ : Session World₂} {p : Program} {trace₁ trace₂ : Trace}
  {site : Occurrence}

theorem symm (h : SideBySide s₁ s₂ p trace₁ trace₂) : SideBySide s₂ s₁ p trace₂ trace₁ where
  twins := h.twins.symm
  explained₁ := h.explained₂
  explained₂ := h.explained₁
  calls site result₂ result₁ answered₂ answered₁ :=
    (h.calls site result₁ result₂ answered₁ answered₂).symm

/-- A task that comes to a call in one trace comes to the same in the other, unless it waits. -/
theorem calls_of_calls (h : SideBySide s₁ s₂ p trace₁ trace₂) {task : Task}
    (below : trace₁.BindingsAgree trace₂ task.limit) {key : DriverKey} {action : String}
    (calls : s₁.Calls trace₁ task key action)
    (goes : ∀ index, s₂.asking trace₂ task ≠ .waiting index) : s₂.Calls trace₂ task key action := by
  obtain ⟨⟨found, complete⟩, routed⟩ := calls
  have agrees : (s₁.asking trace₁ task).Agrees (s₂.asking trace₂ task) := by
    rw [asking, asking, h.twins.bindings]
    exact ask_agrees below _ _ _
  rw [complete] at agrees
  refine ⟨?_, (h.twins.destination_eq _).symm.trans routed⟩
  cases asked : s₂.asking trace₂ task with
  | waiting index => exact absurd asked (goes index)
  | blocked ending =>
    rw [asked] at agrees
    cases agrees
  | complete found' => exact ⟨found', rfl⟩

/-- A step that succeeds in one trace succeeds in the other, if the bindings that it sees agree. -/
theorem success_of_success (h : SideBySide s₁ s₂ p trace₁ trace₂)
    (below : trace₁.BindingsAgree trace₂ (p.scope site)) {ending₁ ending₂ : Ending}
    (ended₁ : .ended site ending₁ ∈ trace₁) (ended₂ : .ended site ending₂ ∈ trace₂)
    (success : ending₁.envelope.success = true) : ending₂.envelope.success = true := by
  obtain ⟨call, called, answered₁⟩ := h.explained₁.called_of_success ended₁ success
  obtain ⟨task, has, calls⟩ := h.explained₁.calls called
  rw [← Program.limit_of_task? has] at below
  have calls := h.calls_of_calls below calls (h.explained₂.not_waiting ended₂ has)
  obtain ⟨-, -, -, -, answered₂⟩ := h.explained₂.called_of_calls has calls ended₂
  rw [← h.calls site _ _ answered₁ answered₂]
  exact success

/-- **Bindings agree on success**: each is evaluated where those before it agree. -/
theorem value_agrees (h : SideBySide s₁ s₂ p trace₁ trace₂) (index : Nat) (result₁ result₂ : Envelope)
    (known₁ : trace₁.value? index = some result₁) (known₂ : trace₂.value? index = some result₂) :
    result₁.success = result₂.success := by
  induction index using Nat.strongRecOn generalizing result₁ result₂ with
  | ind index ih =>
    obtain ⟨ending₁, found₁, rfl⟩ := Option.map_eq_some_iff.mp known₁
    obtain ⟨ending₂, found₂, rfl⟩ := Option.map_eq_some_iff.mp known₂
    have ended₁ := Trace.mem_of_ending? found₁
    have ended₂ := Trace.mem_of_ending? found₂
    have below : trace₁.BindingsAgree trace₂ (p.scope (.binding index)) := ih
    exact Bool.eq_iff_iff.mpr ⟨h.success_of_success below ended₁ ended₂,
      h.symm.success_of_success below.symm ended₂ ended₁⟩

theorem bindingsAgree (h : SideBySide s₁ s₂ p trace₁ trace₂) (limit : Nat) :
    trace₁.BindingsAgree trace₂ limit :=
  fun index _ => h.value_agrees index

/-- **Steps agree on success** that end in both traces. -/
theorem ending_agrees (h : SideBySide s₁ s₂ p trace₁ trace₂) {ending₁ ending₂ : Ending}
    (ended₁ : .ended site ending₁ ∈ trace₁) (ended₂ : .ended site ending₂ ∈ trace₂) :
    ending₁.envelope.success = ending₂.envelope.success :=
  Bool.eq_iff_iff.mpr ⟨h.success_of_success (h.bindingsAgree _) ended₁ ended₂,
    h.symm.success_of_success (h.symm.bindingsAgree _) ended₂ ended₁⟩

/-- **A step that calls a driver in one trace and ends in the other** calls the same driver there,
by the same name. -/
theorem called (h : SideBySide s₁ s₂ p trace₁ trace₂) {call₁ : Call}
    (called : .called site call₁ ∈ trace₁) (ended : trace₂.HasEnded site) :
    ∃ call₂, .called site call₂ ∈ trace₂ ∧ call₂.driver = call₁.driver ∧
      call₂.action = call₁.action := by
  obtain ⟨ending, ended⟩ := ended
  obtain ⟨task, has, calls⟩ := h.explained₁.calls called
  have calls := h.calls_of_calls (h.bindingsAgree _) calls (h.explained₂.not_waiting ended has)
  obtain ⟨call₂, called₂, driver, action, -⟩ := h.explained₂.called_of_calls has calls ended
  exact ⟨call₂, called₂, driver, action⟩

/-- A binding that a step asks for in one trace has been evaluated where the step has ended. -/
theorem evaluated (h : SideBySide s₁ s₂ p trace₁ trace₂) {index : Nat}
    (forced : .forced site index ∈ trace₁) (ended : trace₂.HasEnded site) :
    trace₂.HasEnded (.binding index) := by
  obtain ⟨ending, ended⟩ := ended
  cases h.explained₁ _ forced with
  | @forced _ task _ has asks =>
    obtain ⟨before, name, rest, found, b, mentions, complete, refers, visible⟩ := asks
    have goes := h.explained₂.not_waiting ended has
    have agrees : (ask s₂.bindings trace₁.value? task.limit before .empty).Agrees
        (ask s₂.bindings trace₂.value? task.limit before .empty) :=
      ask_agrees (h.bindingsAgree task.limit) _ _ _
    rw [h.twins.bindings] at complete refers
    rw [complete] at agrees
    cases asked : ask s₂.bindings trace₂.value? task.limit before .empty with
    | waiting other =>
      refine absurd ?_ (goes other)
      rw [asking, mentions, ask_append_waiting asked]
    | blocked =>
      rw [asked] at agrees
      cases agrees
    | complete found₂ =>
      cases known : trace₂.value? index with
      | none =>
        refine absurd ?_ (goes index)
        rw [asking, mentions, ask_append asked, ask_cons_visible refers visible, known]
      | some result =>
        obtain ⟨ending, found, -⟩ := Option.map_eq_some_iff.mp known
        exact ⟨ending, Trace.mem_of_ending? found⟩

end SideBySide

/-! ## Groups -/

theorem aggregate_success_eq {policy : ParallelPolicy} {results₁ results₂ : List Envelope}
    (same : results₁.map Envelope.success = results₂.map Envelope.success) :
    (aggregate policy results₁).success = (aggregate policy results₂).success := by
  have length : results₁.length = results₂.length := by
    simpa using congrArg List.length same
  have count : (results₁.filter Envelope.success).length =
      (results₂.filter Envelope.success).length := by
    have counted := congrArg (List.countP id) same
    rw [List.countP_map, List.countP_map] at counted
    rw [← List.countP_eq_length_filter, ← List.countP_eq_length_filter]
    exact counted
  show policy.isSuccess _ _ = policy.isSuccess _ _
  rw [count, length]

section Groups

variable {s₁ : Session World₁} {s₂ : Session World₂} {trace₁ trace₂ : Trace} {pipeline group : Nat}

mutual

/-- Groups agree on success that have an envelope in both traces. -/
theorem outcome?_agrees (settings : s₁.engine.settings = s₂.engine.settings)
    (agree : trace₁.StepsAgree trace₂ pipeline group) : ∀ (g : Group) (path : List Nat)
    {result₁ result₂ : Envelope}, s₁.outcome? trace₁ pipeline group path g = some result₁ →
    s₂.outcome? trace₂ pipeline group path g = some result₂ → result₁.success = result₂.success
  | .single step, path, result₁, result₂, h₁, h₂ => by
    rw [outcome?] at h₁ h₂
    obtain ⟨ending₁, found₁, rfl⟩ := Option.map_eq_some_iff.mp h₁
    obtain ⟨ending₂, found₂, rfl⟩ := Option.map_eq_some_iff.mp h₂
    exact agree path ending₁ ending₂ (Trace.mem_of_ending? found₁) (Trace.mem_of_ending? found₂)
  | .parallel branches, path, result₁, result₂, h₁, h₂ => by
    rw [outcome?] at h₁ h₂
    obtain ⟨results₁, all₁, rfl⟩ := Option.map_eq_some_iff.mp h₁
    obtain ⟨results₂, all₂, rfl⟩ := Option.map_eq_some_iff.mp h₂
    rw [settings]
    exact aggregate_success_eq (branchOutcomes?_agree settings agree branches path 0 all₁ all₂)
  | .fallback branches, path, result₁, result₂, h₁, h₂ => by
    rw [outcome?] at h₁ h₂
    exact fallbackOutcome?_agrees settings agree branches path 0 [] [] h₁ h₂

theorem branchOutcomes?_agree (settings : s₁.engine.settings = s₂.engine.settings)
    (agree : trace₁.StepsAgree trace₂ pipeline group) : ∀ (rest : List Group) (path : List Nat)
    (position : Nat) {results₁ results₂ : List Envelope},
    s₁.branchOutcomes? trace₁ pipeline group path position rest = some results₁ →
    s₂.branchOutcomes? trace₂ pipeline group path position rest = some results₂ →
    results₁.map Envelope.success = results₂.map Envelope.success
  | [], path, position, results₁, results₂, h₁, h₂ => by
    rw [branchOutcomes?] at h₁ h₂
    cases h₁
    cases h₂
    rfl
  | branch :: rest, path, position, results₁, results₂, h₁, h₂ => by
    rw [branchOutcomes?] at h₁ h₂
    split at h₁
    · next first₁ others₁ hfirst₁ hothers₁ =>
      split at h₂
      · next first₂ others₂ hfirst₂ hothers₂ =>
        cases h₁
        cases h₂
        rw [List.map_cons, List.map_cons, outcome?_agrees settings agree branch _ hfirst₁ hfirst₂,
          branchOutcomes?_agree settings agree rest path _ hothers₁ hothers₂]
      · cases h₂
    · cases h₁

theorem fallbackOutcome?_agrees (settings : s₁.engine.settings = s₂.engine.settings)
    (agree : trace₁.StepsAgree trace₂ pipeline group) : ∀ (rest : List Group) (path : List Nat)
    (position : Nat) (errors₁ errors₂ : List String) {result₁ result₂ : Envelope},
    s₁.fallbackOutcome? trace₁ pipeline group path position errors₁ rest = some result₁ →
    s₂.fallbackOutcome? trace₂ pipeline group path position errors₂ rest = some result₂ →
    result₁.success = result₂.success
  | [], path, position, errors₁, errors₂, result₁, result₂, h₁, h₂ => by
    rw [fallbackOutcome?] at h₁ h₂
    cases h₁
    cases h₂
    rfl
  | branch :: rest, path, position, errors₁, errors₂, result₁, result₂, h₁, h₂ => by
    rw [fallbackOutcome?] at h₁ h₂
    split at h₁
    · cases h₁
    · next first₁ hfirst₁ =>
      split at h₂
      · cases h₂
      · next first₂ hfirst₂ =>
        have same := outcome?_agrees settings agree branch _ hfirst₁ hfirst₂
        rw [same] at h₁
        split at h₁
        · next success =>
          rw [if_pos success] at h₂
          cases h₁
          cases h₂
          exact same
        · next failure =>
          rw [if_neg failure] at h₂
          exact fallbackOutcome?_agrees settings agree rest path _ _ _ h₁ h₂

end

end Groups

section Reached

variable {World : Type} {s : Session World} {trace : Trace} {pipeline group : Nat}

/-- All branches have failed when each has an envelope that says so. -/
theorem allFailed_iff {path : List Nat} {position : Nat} {branches : List Group} :
    s.allFailed trace pipeline group path position branches = true ↔
      ∀ index branch, branches[index]? = some branch → ∃ result,
        s.outcome? trace pipeline group (path ++ [position + index]) branch = some result ∧
          result.success = false := by
  induction branches generalizing position with
  | nil =>
    rw [allFailed]
    exact ⟨fun _ _ _ found => (by cases found), fun _ => rfl⟩
  | cons first rest ih =>
    have both : s.allFailed trace pipeline group path position (first :: rest) = true ↔
        (∃ result, s.outcome? trace pipeline group (path ++ [position]) first = some result ∧
          result.success = false) ∧
        s.allFailed trace pipeline group path (position + 1) rest = true := by
      rw [allFailed]
      cases s.outcome? trace pipeline group (path ++ [position]) first with
      | none => simp
      | some result => simp
    rw [both, ih]
    constructor
    · rintro ⟨failed, others⟩ index branch found
      cases index with
      | zero =>
        cases found
        exact failed
      | succ index =>
        rw [Nat.add_comm index, ← Nat.add_assoc]
        exact others index branch found
    · intro all
      refine ⟨all 0 first rfl, fun index branch found => ?_⟩
      rw [Nat.add_assoc, Nat.add_comm 1]
      exact all (index + 1) branch found

/-- A branch has an envelope when the parallel group has one. -/
theorem outcome?_of_parallel {path : List Nat} {branches : List Group} {result : Envelope}
    (h : s.outcome? trace pipeline group path (.parallel branches) = some result) {index : Nat}
    {branch : Group} (found : branches[index]? = some branch) :
    ∃ result, s.outcome? trace pipeline group (path ++ [index]) branch = some result := by
  rw [outcome?] at h
  obtain ⟨results, all, -⟩ := Option.map_eq_some_iff.mp h
  refine Option.ne_none_iff_exists'.mp fun unended => ?_
  rw [branchOutcomes?_eq_none.mpr ⟨index, branch, found, by rw [Nat.zero_add]; exact unended⟩] at all
  cases all

/-- A branch that is reached has an envelope when the group of fallback branches has one. -/
theorem outcome?_of_fallback {path : List Nat} {branches : List Group} {result : Envelope}
    (h : s.outcome? trace pipeline group path (.fallback branches) = some result) {index : Nat}
    {branch : Group} (found : branches[index]? = some branch)
    (failed : s.allFailed trace pipeline group path 0 (branches.take index) = true) :
    ∃ result, s.outcome? trace pipeline group (path ++ [index]) branch = some result := by
  rw [outcome?] at h
  refine Option.ne_none_iff_exists'.mp fun unended => ?_
  rw [fallbackOutcome?_eq_none.mpr ⟨index, branch, found, failed, by
    rw [Nat.zero_add]; exact unended⟩] at h
  cases h

end Reached

section Reached

variable {s₁ : Session World₁} {s₂ : Session World₂} {trace₁ trace₂ : Trace} {pipeline group : Nat}

/-- Fallback branches that have failed in one trace have failed in the other. -/
theorem allFailed_agrees (settings : s₁.engine.settings = s₂.engine.settings)
    (agree : trace₁.StepsAgree trace₂ pipeline group) {path : List Nat} {branches : List Group}
    {result : Envelope}
    (known : s₂.outcome? trace₂ pipeline group path (.fallback branches) = some result)
    {position : Nat}
    (failed : s₁.allFailed trace₁ pipeline group path 0 (branches.take position) = true) :
    s₂.allFailed trace₂ pipeline group path 0 (branches.take position) = true := by
  rw [allFailed_iff] at failed ⊢
  intro index branch found
  induction index using Nat.strongRecOn generalizing branch with
  | ind index ih =>
    obtain ⟨result₁, ended₁, failure⟩ := failed index branch found
    rw [List.getElem?_take] at found
    obtain ⟨less, there⟩ := Option.ite_none_right_eq_some.mp found
    -- the branches before have failed, so that this one is reached
    have before : s₂.allFailed trace₂ pipeline group path 0 (branches.take index) = true := by
      refine allFailed_iff.mpr fun earlier branch' found' => ?_
      rw [List.getElem?_take] at found'
      obtain ⟨less', there'⟩ := Option.ite_none_right_eq_some.mp found'
      refine ih earlier less' branch' ?_
      rw [List.getElem?_take_of_lt (by omega)]
      exact there'
    obtain ⟨result₂, ended₂⟩ := outcome?_of_fallback known there before
    rw [Nat.zero_add] at ended₁ ⊢
    refine ⟨result₂, ended₂, ?_⟩
    rw [← outcome?_agrees settings agree branch _ ended₁ ended₂]
    exact failure

/-- **Steps that are reached in one trace are reached in the other.** -/
theorem reached?_agrees (settings : s₁.engine.settings = s₂.engine.settings)
    (agree : trace₁.StepsAgree trace₂ pipeline group) {path below : List Nat} {g : Group}
    {result₁ result₂ : Envelope} (known₁ : s₁.outcome? trace₁ pipeline group path g = some result₁)
    (known₂ : s₂.outcome? trace₂ pipeline group path g = some result₂) {step : Step}
    (reached : s₁.reached? trace₁ pipeline group path below g = some step) :
    s₂.reached? trace₂ pipeline group path below g = some step := by
  induction below generalizing path g result₁ result₂ with
  | nil =>
    cases g with
    | single => exact reached
    | parallel => cases reached
    | fallback => cases reached
  | cons position below ih =>
    cases g with
    | single => cases reached
    | parallel branches =>
      rw [reached?] at reached ⊢
      obtain ⟨branch, found, deeper⟩ := Option.bind_eq_some_iff.mp reached
      obtain ⟨_, ended₁⟩ := outcome?_of_parallel known₁ found
      obtain ⟨_, ended₂⟩ := outcome?_of_parallel known₂ found
      rw [found]
      exact ih ended₁ ended₂ deeper
    | fallback branches =>
      rw [reached?] at reached ⊢
      obtain ⟨failed₁, reached⟩ := Option.ite_none_right_eq_some.mp reached
      obtain ⟨branch, found, deeper⟩ := Option.bind_eq_some_iff.mp reached
      have failed₂ := allFailed_agrees settings agree known₂ failed₁
      obtain ⟨_, ended₁⟩ := outcome?_of_fallback known₁ found failed₁
      obtain ⟨_, ended₂⟩ := outcome?_of_fallback known₂ found failed₂
      rw [if_pos failed₂, found]
      exact ih ended₁ ended₂ deeper

end Reached

end Session

end CapabilityPipeline
