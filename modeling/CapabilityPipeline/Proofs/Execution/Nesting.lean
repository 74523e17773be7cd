import CapabilityPipeline.Proofs.Execution.Stretches
import CapabilityPipeline.Proofs.Execution.Twins
import Mathlib.Data.List.Pairwise

/-!
# Groups at any depth

What a group comes to is said by its shape. A step is executed once. Branches that run side by side
all run, whatever becomes of the others. Fallback branches run one after another up to the first that
succeeds, and for those after it nothing happens at all. As groups stand within groups and ask for
the same bindings, these are statements about the trace of the whole run: which events are about
which branch, how often, and in which order.

Results:

* `Aggregated`: the envelope of branches that ran side by side.
* `Session.ComesTo`: what a group within a group comes to, with one case for each kind of group.
* `Session.Demanded`: the steps that something may happen for while a group is run.
* `Session.runGroup_played`: a group at any depth comes to what its shape says, run by the engine or
  by moves in any order.
-/

namespace CapabilityPipeline

open Json (Value)

/-! ## Places and branches -/

/-- The place in a program of the group whose step an event is about. -/
def Event.place? (event : Event) : Option (Nat × Nat) :=
  match event.step? with
  | some (.leaf pipeline group _) => some (pipeline, group)
  | _ => none

/-- Nothing has happened yet to the steps of the group. -/
def Stage.Fresh (stage : Stage) (trace : Trace) : Prop :=
  ∀ event ∈ trace, event.place? ≠ some (stage.pipeline, stage.group)

instance (stage : Stage) (trace : Trace) : Decidable (stage.Fresh trace) :=
  inferInstanceAs (Decidable (∀ _ ∈ _, _))

theorem Stage.Fresh.leaf {stage : Stage} {trace : Trace} (h : stage.Fresh trace) {event : Event}
    (mem : event ∈ trace) (path : List Nat) :
    event.step? ≠ some (.leaf stage.pipeline stage.group path) := by
  intro step
  refine h event mem ?_
  rw [Event.place?, step]

/-- The event is about a step of a branch of the group at a path. -/
def Event.InBranch (stage : Stage) (path : List Nat) (position : Nat) (event : Event) : Prop :=
  ∃ below, event.step? = some (.leaf stage.pipeline stage.group (path ++ position :: below))

namespace Trace

/-- Branches take their turns in order: no event of a branch comes after one of a later branch. -/
def InOrder (stage : Stage) (path : List Nat) (trace : Trace) : Prop :=
  trace.Pairwise fun first later => ∀ i j, first.InBranch stage path i →
    later.InBranch stage path j → i ≤ j

/-- The ways in which a step has ended. -/
def endings (trace : Trace) (site : Occurrence) : List Ending :=
  trace.filterMap fun
    | .ended other ending => if other = site then some ending else none
    | _ => none

/-- The calls that were made for a step. -/
def calls (trace : Trace) (site : Occurrence) : List Call :=
  trace.filterMap fun
    | .called other call => if other = site then some call else none
    | _ => none

variable {trace : Trace} {site : Occurrence}

theorem head?_endings (trace : Trace) (site : Occurrence) :
    (trace.endings site).head? = trace.ending? site :=
  List.head?_filterMap

theorem head?_calls (trace : Trace) (site : Occurrence) :
    (trace.calls site).head? = trace.call? site :=
  List.head?_filterMap

theorem mem_calls {call : Call} : call ∈ trace.calls site ↔ .called site call ∈ trace := by
  rw [calls, List.mem_filterMap]
  constructor
  · rintro ⟨event, mem, same⟩
    cases event with
    | called other call' =>
      obtain ⟨rfl, found⟩ := Option.ite_none_right_eq_some.mp same
      cases found
      exact mem
    | _ => cases same
  · exact fun mem => ⟨_, mem, if_pos rfl⟩

theorem calls_append (trace added : Trace) (site : Occurrence) :
    calls (trace ++ added) site = trace.calls site ++ calls added site :=
  List.filterMap_append

/-- Where nothing happens twice, an event of a kind about a step is the only one. -/
theorem filterMap_eq_singleton {α : Type} (nodup : trace.keys.Nodup) (read : Event → Option α)
    (key : Occurrence × Nat)
    (kind : ∀ event, (read event).isSome = (event.key? == some key)) {a : α}
    (first : (trace.filterMap read).head? = some a) : trace.filterMap read = [a] := by
  have short : (trace.filterMap read).length ≤ 1 := by
    rw [List.length_filterMap_eq_countP, List.countP_congr fun event _ => by rw [kind event],
      ← List.count_filterMap]
    exact List.nodup_iff_count_le_one.mp nodup key
  obtain ⟨others, all⟩ := List.head?_eq_some_iff.mp first
  rw [all, List.length_cons] at short
  rw [all, List.eq_nil_of_length_eq_zero (by omega : others.length = 0)]

theorem endings_eq_singleton (nodup : trace.keys.Nodup) {ending : Ending}
    (ended : trace.ending? site = some ending) : trace.endings site = [ending] := by
  rw [← head?_endings] at ended
  refine filterMap_eq_singleton nodup _ (site, 2) (fun event => ?_) ended
  cases event with
  | ended other ending => by_cases same : other = site <;> simp [Event.key?, same]
  | _ => simp [Event.key?]

theorem calls_eq_singleton (nodup : trace.keys.Nodup) {call : Call}
    (called : trace.call? site = some call) : trace.calls site = [call] := by
  rw [← head?_calls] at called
  refine filterMap_eq_singleton nodup _ (site, 0) (fun event => ?_) called
  cases event with
  | called other call => by_cases same : other = site <;> simp [Event.key?, same]
  | _ => simp [Event.key?]

theorem calls_eq_nil : trace.calls site = [] ↔ trace.call? site = none := by
  rw [← head?_calls, List.head?_eq_none_iff]

end Trace

/-- The calls that an ending speaks of. -/
def Ending.calls : Ending → List Call
  | called call _ => [call]
  | _ => []

/-! ## What groups come to -/

/-- The envelope of branches that ran side by side, under a policy for success. -/
structure Aggregated (policy : ParallelPolicy) (results : List Envelope) (result : Envelope) : Prop where
  /-- The data are the envelopes of the branches, in order. -/
  data : result.data = some (.array (results.map Envelope.toValue))
  success : result.success = true ↔ match policy with
    | .any => ∃ r ∈ results, r.success = true
    | .all => ∀ r ∈ results, r.success = true
  silent : result.success = true → result.error = none
  /-- The error names the branches that have failed, those and no others, in order. -/
  named : result.success = false → ∃ failed : List (Nat × Envelope),
    (failed.map Prod.fst).Pairwise (· < ·) ∧
    (∀ index r, (index, r) ∈ failed ↔ results[index]? = some r ∧ r.success = false) ∧
    result.error = some ("; ".intercalate
      (failed.map fun (index, r) => s!"branch {index + 1}: {r.errorMessage}"))

namespace Session

variable {World : Type}

/-- The call is the one that the step of a task comes to, with the payloads of the bindings that it
mentions and the previous result in place of its tokens. -/
def Requests (s : Session World) (trace : Trace) (task : Task) (call : Call) : Prop :=
  ∃ found driver, s.asking trace task = .complete found ∧
    s.route (s.resolved task found) = .ok (driver, call.driver, call.action) ∧
    call.target = (s.resolved task found).target ∧ call.params = (s.resolved task found).params

/-- A step of a group is executed once. -/
structure ExecutedOnce (s : Session World) (stage : Stage) (trace : Trace) (path : List Nat)
    (step : Step) (ending : Ending) : Prop where
  endings : trace.endings (.leaf stage.pipeline stage.group path) = [ending]
  /-- Its driver is called once if it ends with the result of a call, and else not at all. -/
  calls : trace.calls (.leaf stage.pipeline stage.group path) = ending.calls
  /-- It sees the previous result and all bindings. -/
  requests : ∀ call ∈ ending.calls,
    s.Requests trace ⟨step, stage.previous, s.bindings.length⟩ call

/-- What the group at a path comes to. -/
inductive ComesTo (s : Session World) (stage : Stage) (trace : Trace) :
    (path : List Nat) → Group → Envelope → Prop
  | single {path : List Nat} {step : Step} {ending : Ending}
      (executed : s.ExecutedOnce stage trace path step ending) :
      ComesTo s stage trace path (.single step) ending.envelope
  /-- Every branch runs, whatever becomes of the others. -/
  | parallel {path : List Nat} {branches : List Group} {results : List Envelope} {result : Envelope}
      (count : results.length = branches.length)
      (each : ∀ index branch r, branches[index]? = some branch → results[index]? = some r →
        ComesTo s stage trace (path ++ [index]) branch r)
      (aggregated : Aggregated s.engine.settings.parallel results result) :
      ComesTo s stage trace path (.parallel branches) result
  /-- Branches fail up to one that succeeds, and for no later one does anything happen. -/
  | first {path : List Nat} {branches : List Group} {failures : List Envelope} {branch : Group}
      {result : Envelope}
      (each : ∀ index branch r, branches[index]? = some branch → failures[index]? = some r →
        ComesTo s stage trace (path ++ [index]) branch r)
      (fail : ∀ r ∈ failures, r.success = false)
      (found : branches[failures.length]? = some branch)
      (last : ComesTo s stage trace (path ++ [failures.length]) branch result)
      (success : result.success = true)
      (inOrder : trace.InOrder stage path)
      (untouched : ∀ event ∈ trace, ∀ index, event.InBranch stage path index →
        index ≤ failures.length) :
      ComesTo s stage trace path (.fallback branches) result
  /-- All branches fail, and the data are their messages, in order. -/
  | exhausted {path : List Nat} {branches : List Group} {failures : List Envelope} {result : Envelope}
      (count : failures.length = branches.length)
      (each : ∀ index branch r, branches[index]? = some branch → failures[index]? = some r →
        ComesTo s stage trace (path ++ [index]) branch r)
      (fail : ∀ r ∈ failures, r.success = false)
      (inOrder : trace.InOrder stage path)
      (failure : result.success = false)
      (data : result.data = some (.array (failures.map fun r => .string r.errorMessage))) :
      ComesTo s stage trace path (.fallback branches) result

/-- The steps that something may happen for: those of the group for which something has happened,
and the bindings that such steps ask for, directly or through other bindings. -/
inductive Demanded (stage : Stage) (events : Trace) : Occurrence → Prop
  | step {path : List Nat} {event : Event} (mem : event ∈ events)
      (about : event.step? = some (.leaf stage.pipeline stage.group path)) :
      Demanded stage events (.leaf stage.pipeline stage.group path)
  | binding {site : Occurrence} {index : Nat} (forced : .forced site index ∈ events)
      (demanded : Demanded stage events site) : Demanded stage events (.binding index)

/-- A group has been run from a state to a later one, and has come to a result. -/
structure Played (s : Session World) (stage : Stage) (st : RunState World) (result : Envelope)
    (st' : RunState World) : Prop where
  comesTo : s.ComesTo stage st'.trace [] stage.body result
  /-- What has happened has happened for demanded steps, and its calls are all that has been done to
  the world. -/
  events : ∃ events, st'.trace = st.trace ++ events ∧
    st'.world = s.engine.replay s.context events st.world ∧
    ∀ event ∈ events, ∀ site, event.step? = some site → Demanded stage events site
  /-- The next group may be run from there. -/
  rests : ∀ entry, s.Rests (observed st' (.logged entry))

end Session

/-! ## Aggregates -/

/-- Branches that ran side by side are aggregated as the policy says. -/
theorem aggregated_aggregate (policy : ParallelPolicy) (results : List Envelope) :
    Aggregated policy results (aggregate policy results) where
  data := rfl
  success := by
    show policy.isSuccess (results.filter Envelope.success).length results.length = true ↔ _
    cases policy with
    | any => simp [ParallelPolicy.isSuccess]
    | all => rw [ParallelPolicy.isSuccess, decide_eq_true_iff, List.length_filter_eq_length_iff]
  silent success := if_pos success
  named failure := by
    refine ⟨results.zipIdx.filterMap fun entry =>
      if entry.1.success then none else some (entry.2, entry.1), ?_, fun index r => ?_, ?_⟩
    · have sorted : results.zipIdx.Pairwise fun a b => a.2 < b.2 := by
        rw [← List.pairwise_map, List.zipIdx_map_snd]
        exact List.pairwise_lt_range' 1
      rw [List.pairwise_map, List.pairwise_filterMap]
      refine sorted.imp fun {a b} less x hx y hy => ?_
      obtain ⟨-, same⟩ := Option.ite_none_left_eq_some.mp hx
      obtain ⟨-, same'⟩ := Option.ite_none_left_eq_some.mp hy
      cases same
      cases same'
      exact less
    · rw [List.mem_filterMap]
      constructor
      · rintro ⟨⟨r', index'⟩, mem, same⟩
        obtain ⟨fails, same⟩ := Option.ite_none_left_eq_some.mp same
        cases same
        exact ⟨List.mem_zipIdx_iff_getElem?.mp mem, Bool.eq_false_iff.mpr fails⟩
      · rintro ⟨found, fails⟩
        exact ⟨(r, index), List.mem_zipIdx_iff_getElem?.mpr found, by simp [fails]⟩
    · refine (if_neg (Bool.eq_false_iff.mp failure)).trans ?_
      rw [List.zipIdx_succ, List.filterMap_map, List.map_filterMap]
      congr 3
      funext entry
      obtain ⟨r, index⟩ := entry
      cases success : r.success with
      | true => simp [success]
      | false => simp [success]

/-! ## Paths -/

/-- The group that a path leads to within a group. -/
def Group.at? : List Nat → Group → Option Group
  | [], g => some g
  | position :: path, .parallel branches => branches[position]?.bind (at? path)
  | position :: path, .fallback branches => branches[position]?.bind (at? path)
  | _ :: _, .single _ => none

theorem Group.at?_append (path below : List Nat) (g : Group) :
    g.at? (path ++ below) = (g.at? path).bind (at? below) := by
  induction path generalizing g with
  | nil => rfl
  | cons position path ih =>
    cases g with
    | single => rfl
    | parallel branches =>
      rw [List.cons_append, at?, at?, Option.bind_assoc]
      exact congrArg _ (funext ih)
    | fallback branches =>
      rw [List.cons_append, at?, at?, Option.bind_assoc]
      exact congrArg _ (funext ih)

namespace Session

variable {World : Type} {s : Session World} {stage : Stage}

section Reached

variable {trace : Trace} {pipeline group : Nat} {before path below : List Nat}

/-- What is reached within a group is reached within the group that a path leads to. -/
theorem reached?_below {g inner : Group} {step : Step}
    (reached : s.reached? trace pipeline group before (path ++ below) g = some step)
    (there : g.at? path = some inner) :
    s.reached? trace pipeline group (before ++ path) below inner = some step := by
  induction path generalizing before g with
  | nil =>
    cases there
    rw [List.append_nil]
    exact reached
  | cons position path ih =>
    rw [List.append_cons]
    cases g with
    | single => cases there
    | parallel branches =>
      obtain ⟨branch, found, there⟩ := Option.bind_eq_some_iff.mp there
      rw [List.cons_append, reached?, found] at reached
      exact ih reached there
    | fallback branches =>
      obtain ⟨branch, found, there⟩ := Option.bind_eq_some_iff.mp there
      rw [List.cons_append, reached?, found] at reached
      exact ih (Option.ite_none_right_eq_some.mp reached).2 there

/-- Branches that have failed have come to failures. -/
theorem failure_of_allFailed {branches : List Group} {position index : Nat} {branch : Group}
    (failed : s.allFailed trace pipeline group path 0 (branches.take position) = true)
    (earlier : index < position) (found : branches[index]? = some branch) :
    ∃ r, s.outcome? trace pipeline group (path ++ [index]) branch = some r ∧ r.success = false := by
  rw [allFailed_iff] at failed
  have failure := failed index branch (by rw [List.getElem?_take_of_lt earlier]; exact found)
  rw [Nat.zero_add] at failure
  exact failure

/-- The branches of a group have their envelopes in order. -/
theorem branchOutcomes?_eq_some {position : Nat} {branches : List Group} {results : List Envelope}
    (h : s.branchOutcomes? trace pipeline group path position branches = some results) :
    results.length = branches.length ∧
      ∀ index branch r, branches[index]? = some branch → results[index]? = some r →
        s.outcome? trace pipeline group (path ++ [position + index]) branch = some r := by
  induction branches generalizing position results with
  | nil =>
    rw [branchOutcomes?] at h
    cases h
    exact ⟨rfl, fun _ _ _ found => by cases found⟩
  | cons first rest ih =>
    rw [branchOutcomes?] at h
    split at h
    · next result others here later =>
      cases h
      obtain ⟨count, each⟩ := ih later
      refine ⟨congrArg Nat.succ count, fun index branch r found known => ?_⟩
      cases index with
      | zero =>
        cases found
        cases known
        exact here
      | succ index =>
        rw [Nat.add_comm index, ← Nat.add_assoc]
        exact each index branch r found known
    · cases h

/-- A group of fallback branches has the envelope of the first that succeeds, those before having
failed, or one that carries the messages of all. -/
theorem fallbackOutcome?_eq_some {position : Nat} {errors : List String} {branches : List Group}
    {result : Envelope}
    (h : s.fallbackOutcome? trace pipeline group path position errors branches = some result) :
    ∃ failures : List Envelope, (∀ r ∈ failures, r.success = false) ∧
      (∀ index branch r, branches[index]? = some branch → failures[index]? = some r →
        s.outcome? trace pipeline group (path ++ [position + index]) branch = some r) ∧
      ((failures.length = branches.length ∧
          result = exhausted (errors ++ failures.map Envelope.errorMessage)) ∨
        ∃ branch, branches[failures.length]? = some branch ∧ result.success = true ∧
          s.outcome? trace pipeline group (path ++ [position + failures.length]) branch =
            some result) := by
  induction branches generalizing position errors with
  | nil =>
    rw [fallbackOutcome?] at h
    cases h
    refine ⟨[], fun _ none => absurd none List.not_mem_nil, fun _ _ _ found => (by cases found), ?_⟩
    exact .inl ⟨rfl, by rw [List.map_nil, List.append_nil]⟩
  | cons first rest ih =>
    rw [fallbackOutcome?] at h
    split at h
    · cases h
    · next r here =>
      split at h
      · next success =>
        cases h
        exact ⟨[], fun _ none => absurd none List.not_mem_nil,
          fun _ _ _ _ known => (by cases known), .inr ⟨first, rfl, success, here⟩⟩
      · next failure =>
        obtain ⟨failures, fail, each, ends⟩ := ih h
        refine ⟨r :: failures, ?_, fun index branch r' found known => ?_, ?_⟩
        · exact List.forall_mem_cons.mpr ⟨Bool.eq_false_iff.mpr failure, fail⟩
        · cases index with
          | zero =>
            cases found
            cases known
            exact here
          | succ index =>
            rw [Nat.add_comm index, ← Nat.add_assoc]
            exact each index branch r' found known
        · rw [List.length_cons, List.length_cons, List.map_cons, List.append_cons,
            Nat.add_comm failures.length, ← Nat.add_assoc]
          rcases ends with ⟨count, same⟩ | ⟨branch, found, success, last⟩
          · exact .inl ⟨by rw [count, Nat.add_comm], same⟩
          · exact .inr ⟨branch, by rw [Nat.add_comm]; exact found, success, last⟩

end Reached

/-! ## While a group is run -/

theorem Requests.mono {trace later : Trace} {task : Task} {call : Call}
    (h : s.Requests trace task call) (grown : trace <+: later) : s.Requests later task call := by
  obtain ⟨found, driver, complete, request⟩ := h
  exact ⟨found, driver, ask_complete_mono (fun _ _ => Trace.value?_mono grown) complete, request⟩

theorem Demanded.mono {events later : Trace} {site : Occurrence}
    (h : Demanded stage events site) (grown : events <+: later) : Demanded stage later site := by
  induction h with
  | step mem about => exact .step (grown.subset mem) about
  | binding forced demanded ih => exact .binding (grown.subset forced) ih

section Moves

variable {start st : RunState World} (fresh : stage.Fresh start.trace)
  (moves : s.Moves stage start st)

include fresh moves

/-- **A call for a step of the group is the one that the step comes to.** -/
theorem requests_of_called {path : List Nat} {call : Call}
    (called : .called (.leaf stage.pipeline stage.group path) call ∈ st.trace) {step : Step}
    (there : stage.body.at? path = some (.single step)) :
    s.Requests st.trace ⟨step, stage.previous, s.bindings.length⟩ call := by
  induction moves with
  | refl => exact absurd rfl (fresh.leaf called path)
  | @tail mid last moves move ih =>
    by_cases old : .called (.leaf stage.pipeline stage.group path) call ∈ mid.trace
    · exact (ih old).mono move.trace_prefix
    · cases move with
      | @call _ site task found driver key action ready complete route =>
        rcases List.mem_append.mp called with old' | added
        · exact absurd old' old
        · cases List.mem_singleton.mp added
          obtain ⟨-, -, step', reached, rfl⟩ := task?_leaf ready.task
          rw [← List.append_nil path] at reached
          have reached := reached?_below reached there
          cases reached
          have requests : s.Requests mid.trace ⟨step, stage.previous, s.bindings.length⟩
              ⟨key, action, _, _⟩ :=
            ⟨found, driver, complete, route, rfl, rfl⟩
          exact requests.mono (List.prefix_append _ _)
      | elapse => exact absurd called old
      | _ =>
        rcases List.mem_append.mp called with old' | added
        · exact absurd old' old
        · cases List.mem_singleton.mp added

variable (sound : s.Sound stage start)

include sound

/-- A step of the group that something has happened for has been reached. -/
theorem reached_of_event {event : Event} (mem : event ∈ st.trace) {path : List Nat}
    (about : event.step? = some (.leaf stage.pipeline stage.group path)) : ∃ step,
    s.reached? st.trace stage.pipeline stage.group [] path stage.body = some step := by
  obtain ⟨added, grown, tasks⟩ := sound.moves_events moves
  rw [grown] at mem
  rcases List.mem_append.mp mem with old | new
  · exact absurd about (fresh.leaf old path)
  · obtain ⟨task, ready, -⟩ := tasks event new _ about
    obtain ⟨-, -, step, reached, -⟩ := task?_leaf ready
    exact ⟨step, reached⟩

/-- When something has happened in a fallback branch, those before it have come to failures. -/
theorem failure_of_event {path : List Nat} {branches : List Group}
    (there : stage.body.at? path = some (.fallback branches)) {event : Event}
    (mem : event ∈ st.trace) {position : Nat} (inside : event.InBranch stage path position)
    {index : Nat} (earlier : index < position) {branch : Group}
    (found : branches[index]? = some branch) : ∃ r,
    s.outcome? st.trace stage.pipeline stage.group (path ++ [index]) branch = some r ∧
      r.success = false := by
  obtain ⟨below, about⟩ := inside
  obtain ⟨step, reached⟩ := reached_of_event fresh moves sound mem about
  have reached := reached?_below reached there
  rw [List.nil_append, reached?] at reached
  exact failure_of_allFailed (Option.ite_none_right_eq_some.mp reached).1 earlier found

/-- **Fallback branches take their turns in order**: a later branch has its turn when those before
it have failed, and nothing happens any more in a branch that has come to its end. -/
theorem inOrder_fallback {path : List Nat} {branches : List Group}
    (there : stage.body.at? path = some (.fallback branches)) : st.trace.InOrder stage path := by
  induction moves with
  | refl =>
    refine List.pairwise_of_forall_mem_list fun first mem later _ i j inFirst _ => ?_
    obtain ⟨below, about⟩ := inFirst
    exact absurd about (fresh.leaf mem _)
  | @tail mid last moves move ih =>
    rcases (sound.moves moves).move_added move with same | ⟨event, same, about⟩
    · rw [same]
      exact ih
    · rw [same, Trace.InOrder, List.pairwise_append]
      refine ⟨ih, List.pairwise_singleton _ _, fun old mem new added i j inOld inNew => ?_⟩
      cases List.mem_singleton.mp added
      obtain ⟨below, step⟩ := inNew
      obtain ⟨task, ready, unended, -⟩ := about _ step
      obtain ⟨-, -, step', reached, -⟩ := task?_leaf ready
      have reached := reached?_below reached there
      rw [List.nil_append, reached?] at reached
      obtain ⟨branch, found, deeper⟩ :=
        Option.bind_eq_some_iff.mp (Option.ite_none_right_eq_some.mp reached).2
      by_contra later
      obtain ⟨r, outcome, -⟩ := failure_of_event fresh moves sound there mem inOld
        (Nat.lt_of_not_le later) found
      obtain ⟨ending, ended⟩ := ended_of_outcome? outcome deeper
      rw [List.append_assoc, List.singleton_append, unended] at ended
      cases ended

/-- **A step of the group that has ended has called its driver as its ending says.** -/
theorem calls_of_ended {path : List Nat} {ending : Ending}
    (ended : .ended (.leaf stage.pipeline stage.group path) ending ∈ st.trace) :
    st.trace.calls (.leaf stage.pipeline stage.group path) = ending.calls := by
  induction moves generalizing ending with
  | refl => exact absurd rfl (fresh.leaf ended path)
  | @tail mid last moves move ih =>
    -- an event that is no call leaves the calls as they are
    have quiet {event : Event} (silent : event.caller? = none)
        (new : ∀ ending, event = .ended (.leaf stage.pipeline stage.group path) ending →
          mid.trace.calls (.leaf stage.pipeline stage.group path) = ending.calls)
        (ended : .ended (.leaf stage.pipeline stage.group path) ending ∈ mid.trace ++ [event]) :
        Trace.calls (mid.trace ++ [event]) (.leaf stage.pipeline stage.group path) =
          ending.calls := by
      have none : Trace.calls [event] (.leaf stage.pipeline stage.group path) = [] := by
        cases event with
        | called => cases silent
        | _ => rfl
      rw [Trace.calls_append, none, List.append_nil]
      rcases List.mem_append.mp ended with old | added
      · exact ih old
      · exact new ending (List.mem_singleton.mp added).symm
    cases move with
    | force => exact quiet rfl nofun ended
    | block ready blocked =>
      refine quiet rfl (fun ending same => ?_) ended
      cases same
      obtain ⟨before, name, rest, found, -, -, stops⟩ := ask_stops blocked nofun
      rw [Trace.calls_eq_nil.mpr ready.uncalled]
      cases stops with
      | _ => rfl
    | refuse ready complete route =>
      refine quiet rfl (fun ending same => ?_) ended
      cases same
      exact Trace.calls_eq_nil.mpr ready.uncalled
    | @call _ site task found driver key action ready complete route =>
      dsimp only [afterCall, observed] at ended ⊢
      rcases List.mem_append.mp ended with old | added
      · have other : site ≠ .leaf stage.pipeline stage.group path := by
          rintro rfl
          exact Trace.ending?_eq_none.mp ready.unended ending old
        rw [Trace.calls_append, ih old, Trace.calls_eq_nil.mpr, List.append_nil]
        refine Trace.call?_eq_none.mpr fun call mem => ?_
        cases List.mem_singleton.mp mem
        exact other rfl
      · cases List.mem_singleton.mp added
    | finish task called answered unended =>
      refine quiet rfl (fun ending same => ?_) ended
      cases same
      exact Trace.calls_eq_singleton (sound.moves moves).keys called
    | log => exact quiet rfl nofun ended
    | arrive => exact quiet rfl nofun ended
    | elapse => exact ih ended

/-- A step of the group that has ended has been executed once. -/
theorem executedOnce_of_ended {path : List Nat} {step : Step} {ending : Ending}
    (there : stage.body.at? path = some (.single step))
    (ended : st.trace.ending? (.leaf stage.pipeline stage.group path) = some ending) :
    s.ExecutedOnce stage st.trace path step ending := by
  have calls := calls_of_ended fresh moves sound (Trace.mem_of_ending? ended)
  refine ⟨Trace.endings_eq_singleton (sound.moves moves).keys ended, calls, fun call mem => ?_⟩
  rw [← calls, Trace.mem_calls] at mem
  exact requests_of_called fresh moves mem there

/-- **A group at any depth comes to what its shape says**, when it has its envelope. -/
theorem comesTo_of_outcome? (path : List Nat) (g : Group) {result : Envelope}
    (there : stage.body.at? path = some g)
    (h : s.outcome? st.trace stage.pipeline stage.group path g = some result) :
    s.ComesTo stage st.trace path g result := by
  match g, there, h with
  | .single step, there, h =>
    rw [outcome?] at h
    obtain ⟨ending, ended, rfl⟩ := Option.map_eq_some_iff.mp h
    exact .single (executedOnce_of_ended fresh moves sound there ended)
  | .parallel branches, there, h =>
    rw [outcome?] at h
    obtain ⟨results, all, rfl⟩ := Option.map_eq_some_iff.mp h
    obtain ⟨count, each⟩ := branchOutcomes?_eq_some all
    refine .parallel count (fun index branch r found known => ?_) (aggregated_aggregate _ _)
    have outcome := each index branch r found known
    rw [Nat.zero_add] at outcome
    refine comesTo_of_outcome? (path ++ [index]) branch ?_ outcome
    rw [Group.at?_append, there, Option.bind_some, Group.at?, found]
    rfl
  | .fallback branches, there, h =>
    rw [outcome?] at h
    obtain ⟨failures, fail, each, ends⟩ := fallbackOutcome?_eq_some h
    have below {index : Nat} {branch : Group} (found : branches[index]? = some branch) :
        stage.body.at? (path ++ [index]) = some branch := by
      rw [Group.at?_append, there, Option.bind_some, Group.at?, found]
      rfl
    have each (index : Nat) (branch : Group) (r : Envelope) (found : branches[index]? = some branch)
        (known : failures[index]? = some r) : s.ComesTo stage st.trace (path ++ [index]) branch r := by
      have outcome := each index branch r found known
      rw [Nat.zero_add] at outcome
      exact comesTo_of_outcome? (path ++ [index]) branch (below found) outcome
    have inOrder := inOrder_fallback fresh moves sound there
    rcases ends with ⟨count, rfl⟩ | ⟨branch, found, success, last⟩
    · refine .exhausted count each fail inOrder rfl ?_
      rw [List.nil_append]
      show some (Value.array ((failures.map Envelope.errorMessage).map Value.string)) = _
      rw [List.map_map]
      rfl
    · rw [Nat.zero_add] at last
      refine .first each fail found (comesTo_of_outcome? _ branch (below found) last) success inOrder ?_
      intro event mem index inside
      by_contra later
      obtain ⟨r, outcome, failure⟩ := failure_of_event fresh moves sound there mem inside
        (Nat.lt_of_not_le later) found
      cases outcome.symm.trans last
      rw [success] at failure
      cases failure
termination_by sizeOf g
decreasing_by
  all_goals
    have := List.sizeOf_lt_of_mem (List.mem_of_getElem? found)
    simp only [Group.parallel.sizeOf_spec, Group.fallback.sizeOf_spec]
    omega

end Moves

/-- **Whatever happens while a group is run is demanded**, and its calls are all that is done to the
world. -/
theorem Rests.exists_demanded {start st : RunState World} (rests : s.Rests start)
    (moves : s.Moves stage start st) : ∃ events, st.trace = start.trace ++ events ∧
      st.world = s.engine.replay s.context events start.world ∧
      ∀ event ∈ events, ∀ site, event.step? = some site → Demanded stage events site := by
  induction moves with
  | refl => exact ⟨[], (List.append_nil _).symm, rfl, fun _ none => absurd none List.not_mem_nil⟩
  | @tail mid last moves move ih =>
    obtain ⟨events, grown, world, demanded⟩ := ih
    obtain ⟨added, grown', world'⟩ := move.replayed
    refine ⟨events ++ added, by rw [grown', grown, List.append_assoc],
      by rw [world', world, Engine.replay_append], fun event mem site step => ?_⟩
    rcases List.mem_append.mp mem with old | new
    · exact (demanded event old site step).mono (List.prefix_append _ _)
    · obtain ⟨task, ready, unended⟩ : ∃ task, s.task? stage mid.trace site = some task ∧
          mid.trace.ending? site = none := by
        rcases ((rests stage).moves moves).move_added move with same | ⟨event', same, about⟩
        · rw [List.append_right_eq_self.mp (grown'.symm.trans same)] at new
          cases new
        · rw [List.append_cancel_left (grown'.symm.trans same)] at new
          cases List.mem_singleton.mp new
          obtain ⟨task, ready, unended, -⟩ := about site step
          exact ⟨task, ready, unended⟩
      cases site with
      | leaf =>
        obtain ⟨rfl, rfl, -⟩ := task?_leaf ready
        exact .step mem step
      | binding index =>
        obtain ⟨⟨keeper, kept⟩, -⟩ := task?_binding ready
        have forced := Trace.mem_of_keeper? kept
        rw [grown] at forced
        rcases List.mem_append.mp forced with before | since
        · obtain ⟨ending, ended⟩ := rests.evaluated before
          rw [Trace.ending?_mono ⟨events, grown.symm⟩ ended] at unended
          cases unended
        · exact .binding (List.mem_append_left _ since)
            ((demanded _ since keeper rfl).mono (List.prefix_append _ _))
      | alone => cases ready

/-- A group that has its envelope has been played. -/
theorem Rests.played {st st' : RunState World} {result : Envelope} (rests : s.Rests st)
    (fresh : stage.Fresh st.trace) (moves : s.Moves stage st st')
    (outcome : s.outcome? st'.trace stage.pipeline stage.group [] stage.body = some result) :
    s.Played stage st result st' where
  comesTo := comesTo_of_outcome? fresh moves (rests stage) [] stage.body rfl outcome
  events := rests.exists_demanded moves
  rests := ((rests stage).moves moves).rests outcome

/-- **A group at any depth comes to what its shape says.** Between groups, the engine runs any group
at a new place to its end: branches side by side all run, and fallback branches run up to the first
that succeeds. So it is for moves in any other order that end with an envelope. -/
theorem runGroup_played (stage : Stage) (st : RunState World) (rests : s.Rests st)
    (fresh : stage.Fresh st.trace) :
    s.Played stage st ((s.runGroup stage.pipeline stage.group stage.previous stage.body).run st).1
        ((s.runGroup stage.pipeline stage.group stage.previous stage.body).run st).2 ∧
      ∀ result st', s.Moves stage st st' →
        s.outcome? st'.trace stage.pipeline stage.group [] stage.body = some result →
        s.Played stage st result st' := by
  have settled := runGroup_spec (rests stage)
  exact ⟨rests.played fresh settled.moves settled.outcome,
    fun result st' moves outcome => rests.played fresh moves outcome⟩

end Session

/-- Fallback branches, of which the first fails and the second holds branches of its own. -/
def Group.nested : Group :=
  .fallback [
    .single ((Step.ofRoute "source" "echo").withTarget "$z"),
    .parallel [.single ((Step.ofRoute "source" "echo").withTarget "$x"),
      .fallback [.single (Step.ofRoute "source" "lose"), .parallel []]],
    .single ((Step.ofRoute "source" "echo").withTarget "$y")]

/-- One group is run after another. The second finds a binding evaluated by the first, and its last
branch is not needed, nor is the binding that only this branch mentions. -/
theorem Session.runGroup_played_nested :
    let s : Session Unit := ⟨.echoing, Program.diamond.bindings, .ofRun "r", ""⟩
    let first : Stage := ⟨0, 0, none, .single ((Step.ofRoute "source" "echo").withTarget "$x")⟩
    let second : Stage := ⟨0, 1, some .null, .nested⟩
    let before := (s.runGroup 0 0 none first.body).run (Engine.initial ())
    let st := s.afterGroup first before.1 before.2
    let ran := (s.runGroup 0 1 (some .null) .nested).run st
    s.Rests st ∧ second.Fresh st.trace ∧ s.Played second st ran.1 ran.2 ∧
      ran.2.trace.callers = [.binding 0, .leaf 0 0 [], .leaf 0 1 [1, 0]] := by
  intro s first second before st ran
  have played := (runGroup_played (s := s) first (Engine.initial ())
    (fun stage => .initial s stage ()) (by decide)).1
  have fresh : second.Fresh st.trace := by decide +kernel
  exact ⟨played.rests _, fresh, (runGroup_played second st (played.rests _) fresh).1,
    by decide +kernel⟩

end CapabilityPipeline
