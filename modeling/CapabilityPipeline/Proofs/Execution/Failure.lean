import CapabilityPipeline.Proofs.Execution.Explained

/-!
# Failures without failing drivers

When no driver fails, a step fails for two reasons only: it is routed nowhere, or a binding that it
mentions has failed. A binding fails for the same two reasons, so whether a step fails can be told
from the program before it is run.

Results:

* `Program.Mentions`, `Program.References`: the bindings a step depends on, directly or not.
* `Engine.NeverFails`: every driver serves every call in time.
* `Engine.MayRun.of_success`, `Engine.MayRun.of_failure`: what a step that has ended needs, and
  what it lacks.
* `Engine.MayRun.fails_iff`: a step fails with what it references.
* `Engine.MayRun.fails_iff_unserved`: which steps fail, as told by their routes.
-/

namespace CapabilityPipeline

open Json (Value)

/-! ## References -/

/-- The step at an occurrence mentions the binding at an index. -/
def Program.Mentions (p : Program) (site : Occurrence) (index : Nat) : Prop :=
  ∃ step name b, p.stepAt? site = some step ∧ name ∈ step.mentions.keys ∧
    lastBinding? name p.bindings = some (index, b)

/-- The step at an occurrence references the binding at an index, directly or through other
bindings. -/
inductive Program.References (p : Program) : Occurrence → (index : Nat) → Prop
  | direct {site : Occurrence} {index : Nat} (mentions : p.Mentions site index) :
      References p site index
  | through {site : Occurrence} {middle index : Nat} (mentions : p.Mentions site middle)
      (further : References p (.binding middle) index) : References p site index

/-- A step mentions bindings only that it sees. -/
theorem Program.Scoped.mentions_lt {p : Program} (sees : p.Scoped) {site : Occurrence}
    {index : Nat} (h : p.Mentions site index) : index < p.scope site := by
  obtain ⟨step, name, b, found, mentioned, same⟩ := h
  obtain ⟨index', b', same', visible⟩ := sees site step found name mentioned
  cases same.symm.trans same'
  exact visible

/-! ## Asking -/

section Asking

variable {bindings : List Binding} {value? : Nat → Option Envelope} {limit : Nat}
  {names : List String} {start : NameMap Value}

/-- A step for which a binding cannot be had, though it sees all that it mentions, mentions one
that has failed. -/
theorem ask_blocked_cause {ending : Ending}
    (sees : ∀ name ∈ names, ∃ index b, lastBinding? name bindings = some (index, b) ∧ index < limit)
    (h : ask bindings value? limit names start = .blocked ending) :
    ∃ name ∈ names, ∃ index b result, lastBinding? name bindings = some (index, b) ∧
      value? index = some result ∧ result.success = false ∧
      ending = .bindingFailed name result.errorMessage := by
  obtain ⟨before, name, rest, found, rfl, -, stops⟩ := ask_stops h nofun
  have mem : name ∈ before ++ name :: rest := List.mem_append_right _ List.mem_cons_self
  cases stops with
  | unseen hidden =>
    obtain ⟨index, b, same, visible⟩ := sees name mem
    exact absurd visible (hidden index b same)
  | failed same visible known failure => exact ⟨name, mem, _, _, _, same, known, failure, rfl⟩

end Asking

/-! ## Drivers that never fail -/

/-- Every driver serves every call with a success, in time. -/
def Engine.NeverFails {World : Type} (e : Engine World) : Prop :=
  ∀ key driver, e.drivers.get? key = some driver → ∀ request world site route,
    ((driver.call request world).1.delivery site route e.settings.timeoutMs).result.success = true

/-- The results of calls are successes, those that have arrived and those underway. -/
structure RunState.Succeeds {World : Type} (st : RunState World) : Prop where
  underway : ∀ d ∈ st.underway, d.result.success = true
  answered : ∀ site result, .answered site result ∈ st.trace → result.success = true

/-- Events other than results are added. -/
theorem RunState.Succeeds.observed {World : Type} {st : RunState World} (h : st.Succeeds)
    {event : Event} (quiet : event.receiver? = none) :
    (Session.observed st event).Succeeds where
  underway := h.underway
  answered := by
    intro site result mem
    rcases List.mem_append.mp mem with old | added
    · exact h.answered site result old
    · rw [← List.mem_singleton.mp added] at quiet
      cases quiet

/-- **With drivers that never fail, no move brings a failure.** -/
theorem Session.move_succeeds {World : Type} {s : Session World} (never : s.engine.NeverFails)
    {stage : Stage} {st st' : RunState World} (move : s.Move stage st st') (h : st.Succeeds) :
    st'.Succeeds := by
  cases move with
  | @call _ site task found driver key action ready complete route =>
    refine ⟨fun d hd => ?_, (h.observed rfl).answered⟩
    rcases List.mem_append.mp hd with old | added
    · exact h.underway d old
    · rw [List.mem_singleton.mp added]
      exact never key driver (get?_of_route route) _ _ _ _
  | @arrive world before after delivery trace =>
    refine ⟨fun d hd => h.underway d ?_, fun site result mem => ?_⟩
    · rw [List.mem_append, List.mem_cons]
      exact (List.mem_append.mp hd).imp_right .inr
    · rcases List.mem_append.mp mem with old | added
      · exact h.answered site result old
      · cases List.mem_singleton.mp added
        exact h.underway delivery (List.mem_append_right _ (List.mem_cons_self ..))
  | elapse delay =>
    refine ⟨fun d hd => ?_, h.answered⟩
    obtain ⟨d', hd', rfl⟩ := List.mem_map.mp hd
    exact h.underway d' hd'
  | _ => exact h.observed rfl

/-! ## Endings -/

/-- Where nothing happens twice, a step ends in one way. -/
theorem Trace.ending?_of_mem {trace : Trace} (nodup : trace.keys.Nodup) {site : Occurrence}
    {ending : Ending} (h : .ended site ending ∈ trace) : trace.ending? site = some ending := by
  obtain ⟨before, after, rfl⟩ := List.append_of_mem h
  have first : ending? before site = none := by
    refine ending?_eq_none.mpr fun ending' earlier => ?_
    rw [keys, List.filterMap_append] at nodup
    exact (List.nodup_append.mp nodup).2.2 (site, 2) (List.mem_filterMap.mpr ⟨_, earlier, rfl⟩)
      (site, 2) (List.mem_filterMap.mpr ⟨_, List.mem_cons_self .., rfl⟩) rfl
  rw [ending?_append, first, ← List.singleton_append, ending?_append,
    ((reads_ending site).single (.ended site ending) ending).mpr rfl]
  rfl

/-- A step has ended with a failure. -/
def Trace.Failed (trace : Trace) (site : Occurrence) : Prop :=
  ∃ ending, .ended site ending ∈ trace ∧ ending.envelope.success = false

/-- The step at an occurrence is routed to no driver. -/
def Session.Unserved {World : Type} (s : Session World) (p : Program) (site : Occurrence) : Prop :=
  ∃ step error, p.stepAt? site = some step ∧ s.destination step = .error error

namespace Engine

variable {World : Type} {e : Engine World} {p : Program} {context : Context} {time : String}
  {world : World} {results : List Envelope} {st : RunState World}

namespace MayRun

variable (run : e.MayRun p context time world results st)

include run

/-- Nothing happens twice in a run. -/
theorem keys_nodup : st.trace.keys.Nodup :=
  run.invariant (I := fun st => st.trace.keys.Nodup) List.nodup_nil
    fun _ _ _ _ sound _ move => (sound.move move).keys

theorem succeeds (never : e.NeverFails) : st.Succeeds :=
  run.invariant (I := RunState.Succeeds)
    ⟨fun _ none => (List.not_mem_nil none).elim, fun _ _ none => (List.not_mem_nil none).elim⟩
    fun _ _ _ _ _ holds move => Session.move_succeeds never move holds

/-- **What a step needs**: when it has succeeded, it is routed to a driver, and the bindings that
it mentions have succeeded. -/
theorem of_success {site : Occurrence} {ending : Ending} (ended : .ended site ending ∈ st.trace)
    (success : ending.envelope.success = true) :
    ¬ Session.Unserved ⟨e, p.bindings, context, time⟩ p site ∧
      ∀ index, p.Mentions site index → ∃ ending', .ended (.binding index) ending' ∈ st.trace ∧
        ending'.envelope.success = true := by
  cases run.explained _ ended with
  | blocked has blocked =>
    rw [ask_blocked_fails blocked] at success
    cases success
  | refused => cases success
  | finished has complete routed called answered =>
    obtain ⟨step, found, rfl⟩ := Option.map_eq_some_iff.mp has
    constructor
    · rintro ⟨step', error, found', unrouted⟩
      cases found.symm.trans found'
      cases routed.symm.trans unrouted
    · rintro index ⟨step', name, b, found', mentioned, same⟩
      cases found.symm.trans found'
      obtain ⟨_, _, result, same', -, known, success⟩ := ask_complete complete name mentioned
      cases same.symm.trans same'
      obtain ⟨ending', ended', rfl⟩ := Option.map_eq_some_iff.mp known
      exact ⟨ending', Trace.mem_of_ending? ended', success⟩

/-- **What a step lacks**: when it has failed and no driver fails, it is routed to no driver, or a
binding that it mentions has failed. -/
theorem of_failure (never : e.NeverFails) (sees : p.Scoped) {site : Occurrence}
    (failed : st.trace.Failed site) : Session.Unserved ⟨e, p.bindings, context, time⟩ p site ∨
      ∃ index, p.Mentions site index ∧ st.trace.Failed (.binding index) := by
  obtain ⟨ending, ended, failure⟩ := failed
  cases run.explained _ ended with
  | blocked has blocked =>
    obtain ⟨step, found, rfl⟩ := Option.map_eq_some_iff.mp has
    obtain ⟨name, mentioned, index, b, result, same, known, failure, -⟩ :=
      ask_blocked_cause (sees site step found) blocked
    obtain ⟨ending', ended', rfl⟩ := Option.map_eq_some_iff.mp known
    exact .inr ⟨index, ⟨step, name, b, found, mentioned, same⟩, ending',
      Trace.mem_of_ending? ended', failure⟩
  | refused has complete routed =>
    obtain ⟨step, found, rfl⟩ := Option.map_eq_some_iff.mp has
    exact .inl ⟨step, _, found, routed⟩
  | finished has complete routed called answered =>
    rw [Ending.envelope, (run.succeeds never).answered _ _ answered] at failure
    cases failure

/-- A step that has succeeded has not failed: it ends once. -/
theorem not_failed {site : Occurrence} {ending : Ending} (ended : .ended site ending ∈ st.trace)
    (success : ending.envelope.success = true) : ¬ st.trace.Failed site := by
  rintro ⟨ending', ended', failure⟩
  have same := (Trace.ending?_of_mem run.keys_nodup ended).symm.trans
    (Trace.ending?_of_mem run.keys_nodup ended')
  cases same
  rw [success] at failure
  cases failure

/-- When a step has succeeded, the bindings that it references have too. -/
theorem of_success_references {site : Occurrence} {index : Nat} (h : p.References site index)
    {ending : Ending} (ended : .ended site ending ∈ st.trace)
    (success : ending.envelope.success = true) :
    ∃ ending', .ended (.binding index) ending' ∈ st.trace ∧ ending'.envelope.success = true := by
  induction h generalizing ending with
  | direct mentions => exact (run.of_success ended success).2 _ mentions
  | through mentions _ ih =>
    obtain ⟨ending', ended', success'⟩ := (run.of_success ended success).2 _ mentions
    exact ih ended' success'

/-- **A step fails with what it references.** When no driver fails, a step that has ended has
failed exactly if it is routed to no driver, or a binding that it references has failed. -/
theorem fails_iff (never : e.NeverFails) (sees : p.Scoped) {site : Occurrence} {ending : Ending}
    (ended : .ended site ending ∈ st.trace) :
    ending.envelope.success = false ↔ Session.Unserved ⟨e, p.bindings, context, time⟩ p site ∨
      ∃ index, p.References site index ∧ st.trace.Failed (.binding index) := by
  constructor
  · intro failure
    rcases run.of_failure never sees ⟨ending, ended, failure⟩ with own | ⟨index, mentions, failed⟩
    · exact .inl own
    · exact .inr ⟨index, .direct mentions, failed⟩
  · intro cause
    by_contra succeeded
    have success := Bool.of_not_eq_false succeeded
    rcases cause with own | ⟨index, references, failed⟩
    · exact (run.of_success ended success).1 own
    · obtain ⟨ending', ended', success'⟩ := run.of_success_references references ended success
      exact run.not_failed ended' success' failed

/-- **Failures can be told from routes.** When no driver fails, a step that has ended has failed
exactly if it is routed to no driver, or a binding that it references is. -/
theorem fails_iff_unserved (never : e.NeverFails) (sees : p.Scoped) {site : Occurrence}
    {ending : Ending} (ended : .ended site ending ∈ st.trace) :
    ending.envelope.success = false ↔ Session.Unserved ⟨e, p.bindings, context, time⟩ p site ∨
      ∃ index, p.References site index ∧
        Session.Unserved ⟨e, p.bindings, context, time⟩ p (.binding index) := by
  constructor
  · -- A step mentions bindings only that stand before it, so that its causes go back to a first.
    intro failure
    induction scope : p.scope site using Nat.strongRecOn generalizing site ending with
    | ind n ih =>
      rcases run.of_failure never sees ⟨ending, ended, failure⟩ with
        own | ⟨index, mentions, ending', ended', failure'⟩
      · exact .inl own
      · refine .inr ?_
        rcases ih index (scope ▸ sees.mentions_lt mentions) ended' failure' rfl with
          own | ⟨first, references, unserved⟩
        · exact ⟨index, .direct mentions, own⟩
        · exact ⟨first, .through mentions references, unserved⟩
  · intro cause
    by_contra succeeded
    have success := Bool.of_not_eq_false succeeded
    rcases cause with own | ⟨index, references, unserved⟩
    · exact (run.of_success ended success).1 own
    · obtain ⟨ending', ended', success'⟩ := run.of_success_references references ended success
      exact (run.of_success ended' success').1 unserved

end MayRun

end Engine

end CapabilityPipeline
