import CapabilityPipeline.Proofs.Execution.Move

/-!
# Steps that are reached

A group has an envelope when the steps that have been reached within it have ended, and only then:
in a group of fallback branches, a branch is reached when those before it have failed.

Results:

* `Session.outcome?_eq_none`: a group has no envelope as long as a step that is reached goes on.
* `Session.task?_binding`, `Session.task?_leaf`: the tasks of bindings and of the steps of a group.
* `Session.leaf_ended`: once a group has its envelope, its steps that have a task have ended.
-/

namespace CapabilityPipeline

namespace Session

variable {World : Type} {s : Session World} {stage : Stage}

/-! ## Envelopes and steps -/

section Ended

variable {trace : Trace} {pipeline group : Nat}

theorem branchOutcomes?_eq_none {path : List Nat} {position : Nat} {branches : List Group} :
    s.branchOutcomes? trace pipeline group path position branches = none ↔
      ∃ index branch, branches[index]? = some branch ∧
        s.outcome? trace pipeline group (path ++ [position + index]) branch = none := by
  induction branches generalizing position with
  | nil =>
    rw [branchOutcomes?]
    exact ⟨nofun, fun ⟨_, _, found, _⟩ => by cases found⟩
  | cons first rest ih =>
    have either : s.branchOutcomes? trace pipeline group path position (first :: rest) = none ↔
        s.outcome? trace pipeline group (path ++ [position]) first = none ∨
          s.branchOutcomes? trace pipeline group path (position + 1) rest = none := by
      rw [branchOutcomes?]
      cases s.outcome? trace pipeline group (path ++ [position]) first with
      | none => simp
      | some result =>
        cases s.branchOutcomes? trace pipeline group path (position + 1) rest with
        | none => simp
        | some results => simp
    rw [either, ih]
    constructor
    · rintro (here | ⟨index, branch, found, unended⟩)
      · exact ⟨0, first, rfl, here⟩
      · refine ⟨index + 1, branch, found, ?_⟩
        rw [← Nat.add_assoc, Nat.add_right_comm]
        exact unended
    · rintro ⟨index, branch, found, unended⟩
      cases index with
      | zero =>
        cases found
        exact .inl unended
      | succ index =>
        refine .inr ⟨index, branch, found, ?_⟩
        rw [Nat.add_right_comm, Nat.add_assoc]
        exact unended

theorem fallbackOutcome?_eq_none {path : List Nat} {position : Nat} {errors : List String}
    {branches : List Group} :
    s.fallbackOutcome? trace pipeline group path position errors branches = none ↔
      ∃ index branch, branches[index]? = some branch ∧
        s.allFailed trace pipeline group path position (branches.take index) = true ∧
        s.outcome? trace pipeline group (path ++ [position + index]) branch = none := by
  induction branches generalizing position errors with
  | nil =>
    rw [fallbackOutcome?]
    exact ⟨nofun, fun ⟨_, _, found, _⟩ => by cases found⟩
  | cons first rest ih =>
    cases here : s.outcome? trace pipeline group (path ++ [position]) first with
    | none =>
      rw [fallbackOutcome?, here]
      exact ⟨fun _ => ⟨0, first, rfl, rfl, here⟩, fun _ => rfl⟩
    | some result =>
      have go : s.fallbackOutcome? trace pipeline group path position errors (first :: rest) = none ↔
          result.success = false ∧ s.fallbackOutcome? trace pipeline group path (position + 1)
            (errors ++ [result.errorMessage]) rest = none := by
        rw [fallbackOutcome?, here]
        dsimp only
        cases result.success with
        | true => simp
        | false => simp
      rw [go, ih]
      constructor
      · rintro ⟨failure, index, branch, found, failed, unended⟩
        refine ⟨index + 1, branch, found, ?_, ?_⟩
        · rw [List.take_succ_cons, allFailed, here, Bool.and_eq_true, Bool.not_eq_true']
          exact ⟨failure, failed⟩
        · rw [← Nat.add_assoc, Nat.add_right_comm]
          exact unended
      · rintro ⟨index, branch, found, failed, unended⟩
        cases index with
        | zero =>
          cases found
          rw [Nat.add_zero, here] at unended
          cases unended
        | succ index =>
          rw [List.take_succ_cons, allFailed, here, Bool.and_eq_true, Bool.not_eq_true'] at failed
          refine ⟨failed.1, index, branch, found, failed.2, ?_⟩
          rw [Nat.add_right_comm, Nat.add_assoc]
          exact unended

/-- **A group has no envelope as long as a step of it that has been reached has not ended.** -/
theorem outcome?_eq_none (path : List Nat) (g : Group) :
    s.outcome? trace pipeline group path g = none ↔
      ∃ below step, s.reached? trace pipeline group path below g = some step ∧
        trace.ending? (.leaf pipeline group (path ++ below)) = none := by
  -- a step below a branch is found by going down the branch
  have down {branch : Group} {index : Nat}
      (ih : s.outcome? trace pipeline group (path ++ [index]) branch = none ↔
        ∃ below step, s.reached? trace pipeline group (path ++ [index]) below branch = some step ∧
          trace.ending? (.leaf pipeline group (path ++ [index] ++ below)) = none) :
      s.outcome? trace pipeline group (path ++ [index]) branch = none ↔
        ∃ below step, s.reached? trace pipeline group (path ++ [index]) below branch = some step ∧
          trace.ending? (.leaf pipeline group (path ++ index :: below)) = none := by
    rw [ih]
    simp only [List.append_assoc, List.singleton_append]
  match g with
  | .single step =>
    rw [outcome?, Option.map_eq_none_iff]
    constructor
    · intro unended
      exact ⟨[], step, rfl, by rw [List.append_nil]; exact unended⟩
    · rintro ⟨below, step', reached, unended⟩
      cases below with
      | nil =>
        rw [List.append_nil] at unended
        exact unended
      | cons => cases reached
  | .parallel branches =>
    rw [outcome?, Option.map_eq_none_iff, branchOutcomes?_eq_none]
    constructor
    · rintro ⟨index, branch, found, unended⟩
      rw [Nat.zero_add, down (outcome?_eq_none (path ++ [index]) branch)] at unended
      obtain ⟨below, step, reached, waiting⟩ := unended
      refine ⟨index :: below, step, ?_, waiting⟩
      rw [reached?, found]
      exact reached
    · rintro ⟨below, step, reached, waiting⟩
      cases below with
      | nil => cases reached
      | cons index below =>
        rw [reached?] at reached
        obtain ⟨branch, found, deeper⟩ := Option.bind_eq_some_iff.mp reached
        refine ⟨index, branch, found, ?_⟩
        rw [Nat.zero_add, down (outcome?_eq_none (path ++ [index]) branch)]
        exact ⟨below, step, deeper, waiting⟩
  | .fallback branches =>
    rw [outcome?, fallbackOutcome?_eq_none]
    constructor
    · rintro ⟨index, branch, found, failed, unended⟩
      rw [Nat.zero_add, down (outcome?_eq_none (path ++ [index]) branch)] at unended
      obtain ⟨below, step, reached, waiting⟩ := unended
      refine ⟨index :: below, step, ?_, waiting⟩
      rw [reached?, if_pos failed, found]
      exact reached
    · rintro ⟨below, step, reached, waiting⟩
      cases below with
      | nil => cases reached
      | cons index below =>
        rw [reached?] at reached
        obtain ⟨failed, reached⟩ := Option.ite_none_right_eq_some.mp reached
        obtain ⟨branch, found, deeper⟩ := Option.bind_eq_some_iff.mp reached
        refine ⟨index, branch, found, failed, ?_⟩
        rw [Nat.zero_add, down (outcome?_eq_none (path ++ [index]) branch)]
        exact ⟨below, step, deeper, waiting⟩
termination_by sizeOf g
decreasing_by
  all_goals
    have := List.sizeOf_lt_of_mem (List.mem_of_getElem? found)
    simp only [Group.parallel.sizeOf_spec, Group.fallback.sizeOf_spec]
    omega

/-- Once a group has its envelope, the steps that are reached within it have ended. -/
theorem ended_of_outcome? {path below : List Nat} {g : Group} {result : Envelope} {step : Step}
    (h : s.outcome? trace pipeline group path g = some result)
    (reached : s.reached? trace pipeline group path below g = some step) :
    ∃ ending, trace.ending? (.leaf pipeline group (path ++ below)) = some ending := by
  cases unended : trace.ending? (.leaf pipeline group (path ++ below)) with
  | some ending => exact ⟨ending, rfl⟩
  | none =>
    rw [(outcome?_eq_none path g).mpr ⟨below, step, reached, unended⟩] at h
    cases h

end Ended

/-! ## Tasks -/

/-- A step that is reached is a step of the group. -/
theorem stepAt?_of_reached? {trace : Trace} {pipeline group : Nat} {before path : List Nat}
    {g : Group} {step : Step} (h : s.reached? trace pipeline group before path g = some step) :
    g.stepAt? path = some step := by
  induction path generalizing before g with
  | nil =>
    cases g with
    | single => exact h
    | parallel => cases h
    | fallback => cases h
  | cons position path ih =>
    cases g with
    | single => cases h
    | parallel branches =>
      rw [reached?] at h
      obtain ⟨branch, found, deeper⟩ := Option.bind_eq_some_iff.mp h
      rw [Group.stepAt?, found]
      exact ih deeper
    | fallback branches =>
      rw [reached?] at h
      split at h
      · obtain ⟨branch, found, deeper⟩ := Option.bind_eq_some_iff.mp h
        rw [Group.stepAt?, found]
        exact ih deeper
      · cases h

/-- The task of a binding. -/
theorem task?_binding {trace : Trace} {index : Nat} {task : Task}
    (h : s.task? stage trace (.binding index) = some task) :
    (∃ site, trace.keeper? index = some site) ∧
      ∃ b, s.bindings[index]? = some b ∧ task = ⟨b.step, none, index⟩ := by
  rw [task?] at h
  split at h
  · next forced =>
    obtain ⟨b, found, same⟩ := Option.map_eq_some_iff.mp h
    exact ⟨Option.isSome_iff_exists.mp forced, b, found, same.symm⟩
  · cases h

/-- The task of a step of the group. -/
theorem task?_leaf {trace : Trace} {pipeline group : Nat} {path : List Nat} {task : Task}
    (h : s.task? stage trace (.leaf pipeline group path) = some task) :
    pipeline = stage.pipeline ∧ group = stage.group ∧ ∃ step,
      s.reached? trace stage.pipeline stage.group [] path stage.body = some step ∧
        task = ⟨step, stage.previous, s.bindings.length⟩ := by
  rw [task?] at h
  split at h
  · next here =>
    obtain ⟨rfl, rfl⟩ := here
    obtain ⟨step, reached, same⟩ := Option.map_eq_some_iff.mp h
    exact ⟨rfl, rfl, step, reached, same.symm⟩
  · cases h

theorem task?_limit_le {trace : Trace} {site : Occurrence} {task : Task}
    (h : s.task? stage trace site = some task) : task.limit ≤ s.bindings.length := by
  cases site with
  | binding index =>
    obtain ⟨-, b, found, rfl⟩ := task?_binding h
    exact Nat.le_of_lt (List.getElem?_eq_some_iff.mp found).1
  | leaf =>
    obtain ⟨-, -, step, -, rfl⟩ := task?_leaf h
    exact Nat.le_refl _
  | alone => cases h

/-- Once the group has its envelope, a step of it that has a task has ended. -/
theorem leaf_ended {trace : Trace} {result : Envelope} {pipeline group : Nat} {path : List Nat}
    {task : Task} (h : s.outcome? trace stage.pipeline stage.group [] stage.body = some result)
    (ready : s.task? stage trace (.leaf pipeline group path) = some task) :
    ∃ ending, trace.ending? (.leaf pipeline group path) = some ending := by
  obtain ⟨rfl, rfl, step, reached, -⟩ := task?_leaf ready
  exact ended_of_outcome? h reached

end Session

end CapabilityPipeline
