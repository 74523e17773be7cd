import CapabilityPipeline.Proofs.Execution.Dispatch
import CapabilityPipeline.Proofs.Execution.Laziness

/-!
# Variables are assigned before use

A program text is refused when a step mentions a name that no earlier statement assigns. A run looks
names up again, when a step asks for its bindings: in the bindings of the whole program, of which a
right-hand side sees only those before it. Whatever drivers do and however branches take turns, no
step of a program that was read ends for want of a variable.

Results:

* `Program.Scoped`: every step sees a binding for each name that it mentions.
* `Program.scoped_of_parse`: a program that was read is scoped.
* `ask_unassigned`: a step ends for want of a variable only if it mentions one that it does not see.
* `Engine.MayRun.neverUnassigned`: no step of a scoped program ends for want of a variable.
* `Engine.run_neverUnassigned`: no step of a program that was read does.
-/

namespace CapabilityPipeline

open Json (Value)

/-! ## What steps see -/

/-- How many bindings the step at an occurrence sees: those before it. -/
def Program.scope (p : Program) : Occurrence → Nat
  | .binding index => index
  | _ => p.bindings.length

/-- Every step sees a binding for each name that it mentions. -/
def Program.Scoped (p : Program) : Prop :=
  ∀ site step, p.stepAt? site = some step → ∀ name ∈ step.mentions.keys,
    ∃ index b, lastBinding? name p.bindings = some (index, b) ∧ index < p.scope site

/-- Where names are distinct, a name that is bound before an index is found there. -/
theorem lastBinding?_of_mem_take {name : String} {bindings : List Binding} {limit : Nat}
    (distinct : (bindings.map Binding.name).Nodup)
    (h : name ∈ (bindings.take limit).map Binding.name) :
    ∃ index b, lastBinding? name bindings = some (index, b) ∧ index < limit := by
  cases found : lastBinding? name bindings with
  | none =>
    exact absurd (List.map_subset _ (List.take_subset limit _) h) (lastBinding?_eq_none found)
  | some entry =>
    obtain ⟨index, b⟩ := entry
    refine ⟨index, b, rfl, Nat.lt_of_not_le fun later => ?_⟩
    exact not_mem_take_of_lastBinding? distinct found later h

theorem Group.mem_branchSteps {branches : List Group} {branch : Group} {step : Step}
    (h : branch ∈ branches) (hs : step ∈ branch.steps) : step ∈ branchSteps branches := by
  induction branches with
  | nil => cases h
  | cons first rest ih =>
    rw [branchSteps, List.mem_append]
    rcases List.mem_cons.mp h with rfl | later
    · exact .inl hs
    · exact .inr (ih later)

/-- The step that a path leads to is one of the steps of the group. -/
theorem Group.mem_steps_of_stepAt? {path : List Nat} {g : Group} {step : Step}
    (h : g.stepAt? path = some step) : step ∈ g.steps := by
  induction path generalizing g with
  | nil =>
    cases g with
    | single => exact List.mem_singleton.mpr (Option.some.inj h).symm
    | _ => cases h
  | cons position path ih =>
    cases g with
    | single => cases h
    | parallel branches =>
      obtain ⟨branch, found, deeper⟩ := Option.bind_eq_some_iff.mp h
      exact mem_branchSteps (List.mem_of_getElem? found) (ih deeper)
    | fallback branches =>
      obtain ⟨branch, found, deeper⟩ := Option.bind_eq_some_iff.mp h
      exact mem_branchSteps (List.mem_of_getElem? found) (ih deeper)

/-- A step that stands in a pipeline is one of the steps of the program. -/
theorem Program.mem_steps_of_stepAt? {p : Program} {pipeline group : Nat} {path : List Nat}
    {step : Step} (h : p.stepAt? (.leaf pipeline group path) = some step) : step ∈ p.steps := by
  rw [stepAt?, Option.bind_eq_bind, Option.bind_eq_some_iff] at h
  obtain ⟨pl, hpl, h⟩ := h
  obtain ⟨g, hg, h⟩ := Option.bind_eq_some_iff.mp h
  refine List.mem_flatMap.mpr ⟨pl, List.mem_of_getElem? hpl, ?_⟩
  exact List.mem_flatMap.mpr ⟨g, List.mem_of_getElem? hg, Group.mem_steps_of_stepAt? h⟩

/-- A well-formed program is scoped. -/
theorem Program.WellFormed.scoped {p : Program} (h : p.WellFormed) : p.Scoped := by
  intro site step found name hname
  cases site with
  | binding index =>
    obtain ⟨b, hb, rfl⟩ := Option.map_eq_some_iff.mp found
    obtain ⟨within, rfl⟩ := List.getElem?_eq_some_iff.mp hb
    have split : p.bindings =
        p.bindings.take index ++ p.bindings[index] :: p.bindings.drop (index + 1) := by
      rw [← List.drop_eq_getElem_cons within, List.take_append_drop]
    refine lastBinding?_of_mem_take h.distinct ?_
    exact (h.earlier _ _ _ split name hname).resolve_left Bool.false_ne_true
  | leaf pipeline group path =>
    refine lastBinding?_of_mem_take h.distinct ?_
    have all : p.bindings.take (p.scope (.leaf pipeline group path)) = p.bindings :=
      List.take_length
    rw [all]
    have inside := Program.mem_steps_of_stepAt? found
    exact (h.assigned step inside name hname).resolve_left Bool.false_ne_true
  | alone => cases found

/-- **A program that was read is scoped.** -/
theorem Program.scoped_of_parse {code : String} {p : Program}
    (parsed : Program.parse code = .ok p) : p.Scoped :=
  (wellFormed_of_parse parsed).scoped

/-! ## Asking -/

/-- A step that asks for bindings ends for want of a variable only if it mentions one that it does
not see. -/
theorem ask_unassigned {bindings : List Binding} {value? : Nat → Option Envelope} {limit : Nat}
    {names : List String} {start : NameMap Value} {name : String}
    (h : ask bindings value? limit names start = .blocked (.unassigned name)) :
    name ∈ names ∧ ∀ index b, lastBinding? name bindings = some (index, b) → ¬index < limit := by
  obtain ⟨before, name', rest, found, rfl, -, stops⟩ := ask_stops h nofun
  cases stops with
  | unseen hidden => exact ⟨List.mem_append_right _ List.mem_cons_self, hidden⟩

/-! ## Runs -/

/-- No step has ended for want of a variable. -/
def Trace.NeverUnassigned (trace : Trace) : Prop :=
  ∀ site name, .ended site (.unassigned name) ∉ trace

theorem Trace.NeverUnassigned.concat {trace : Trace} (h : trace.NeverUnassigned) {event : Event}
    (new : ∀ site name, event ≠ .ended site (.unassigned name)) :
    NeverUnassigned (trace ++ [event]) := by
  intro site name hmem
  rcases List.mem_append.mp hmem with old | added
  · exact h site name old
  · exact new site name (List.mem_singleton.mp added).symm

namespace Session

variable {World : Type} {s : Session World} {stage : Stage} {p : Program}

/-- A task sees as many bindings as its step does in the program. -/
theorem limit_of_task? (same : s.bindings = p.bindings) {trace : Trace} {site : Occurrence}
    {task : Task} (ready : s.task? stage trace site = some task) : task.limit = p.scope site := by
  cases site with
  | binding index =>
    obtain ⟨-, b, -, rfl⟩ := task?_binding ready
    rfl
  | leaf =>
    obtain ⟨-, -, step, -, rfl⟩ := task?_leaf ready
    exact congrArg List.length same
  | alone => cases ready

/-- No move of a scoped program ends a step for want of a variable. -/
theorem move_neverUnassigned (same : s.bindings = p.bindings) (here : p.HasStage stage)
    (sees : p.Scoped) {st st' : RunState World} (move : s.Move stage st st')
    (h : st.trace.NeverUnassigned) : st'.trace.NeverUnassigned := by
  cases move with
  | @block _ site task ending ready blocked =>
    refine h.concat fun site' name unassigned => ?_
    cases unassigned
    obtain ⟨mentioned, unseen⟩ := ask_unassigned blocked
    have step := stepAt?_of_task? same here ready.task
    obtain ⟨index, b, found, visible⟩ := sees site task.step step name mentioned
    rw [← same] at found
    rw [← limit_of_task? same ready.task] at visible
    exact unseen index b found visible
  | elapse => exact h
  | _ => exact h.concat nofun

end Session

namespace Engine

variable {World : Type}

/-- No step of a scoped program ends for want of a variable, in whatever order moves are made. -/
theorem MayRun.neverUnassigned {e : Engine World} {p : Program} {context : Context} {time : String}
    {world : World} {results : List Envelope} {st : RunState World} (sees : p.Scoped)
    (run : e.MayRun p context time world results st) : st.trace.NeverUnassigned :=
  run.invariant (fun _ _ => List.not_mem_nil) fun _ here _ _ _ holds move =>
    Session.move_neverUnassigned rfl here sees move holds

/-- **Checked references suffice.** When a program that was read is run, every step that is begun is
executed to its end, the right-hand sides of bindings included, and none ends because a variable
is not assigned: with any drivers, and in whatever order branches take turns. -/
theorem run_neverUnassigned {code : String} {p : Program} (parsed : Program.parse code = .ok p)
    (e : Engine World) (context : Context) (time : String) (world : World) :
    (Session.Executed (e.run p context time world).1.trace ∧
        (e.run p context time world).1.trace.NeverUnassigned) ∧
      ∀ results st, e.MayRun p context time world results st →
        Session.Executed st.trace ∧ st.trace.NeverUnassigned := by
  have sees := Program.scoped_of_parse parsed
  obtain ⟨st, run, trace, -⟩ := run_mayRun e p context time world
  refine ⟨?_, fun results st run => ⟨run.executed, run.neverUnassigned sees⟩⟩
  rw [← trace]
  exact ⟨run.executed, run.neverUnassigned sees⟩

/-- Bindings that mention each other, one of which fails, are all found where they are mentioned. -/
theorem run_neverUnassigned_diamond :
    ∃ code, Program.parse code = .ok .diamond ∧
      (echoing.run .diamond (.ofRun "r") "" ()).1.trace.NeverUnassigned ∧
      .ended (.leaf 1 0 [0]) (.bindingFailed "z" "unknown action 'lose' on node 'source'") ∈
        (echoing.run .diamond (.ofRun "r") "" ()).1.trace := by
  have parsed : Program.parse ("$x = [source:echo]\n$y = [source:echo]($x)\n" ++
      "$z = [source:lose]($x)\n[source:echo](\"$x and $y\") & [source:echo]($y)\n" ++
      "[source:echo]($z) ?? [source:echo]($x) >> [source:echo]($z)") = .ok .diamond := by
    decide +kernel
  refine ⟨_, parsed, ?_, by decide +kernel⟩
  exact (run_neverUnassigned parsed echoing (.ofRun "r") "" ()).1.2

/-- A program that no text describes may mention what it does not see. -/
example : .ended (.binding 0) (.unassigned "x") ∈ (echoing.run
    ⟨[⟨"x", (Step.ofRoute "source" "echo").withTarget "$x"⟩],
      [⟨[.single ((Step.ofRoute "source" "echo").withTarget "$x")]⟩]⟩
    (.ofRun "r") "" ()).1.trace := by
  decide +kernel

end Engine

end CapabilityPipeline
